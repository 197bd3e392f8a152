import VibeUsage.Lib.CString

/-!
# Fields of fixed width

The text of a number in a field of fixed width, with leading zeros, and what it says that a list of
bytes goes on with a text from an index. `field_iff` turns a test of one byte of a C string into
such a statement, and `prefix_append_iff` takes a format apart into its fields.

* `digitsFrom_paddedDigits` and `digitsValue_paddedDigits` read a field back.
* `field_iff` and `prefix_append_iff` are used from the left to the right of a format, one for each
  piece of it.
-/

/-- The `width` decimal digits of a number below `10 ^ width`. -/
def paddedDigits : (width n : ℕ) → List UInt8
  | 0, _ => []
  | width + 1, n => UInt8.ofNat (0x30 + n / 10 ^ width) :: paddedDigits width (n % 10 ^ width)

@[simp] theorem length_paddedDigits (width n : ℕ) : (paddedDigits width n).length = width := by
  induction width generalizing n with
  | zero => rfl
  | succ width ih => rw [paddedDigits, List.length_cons, ih]

/-- A digit is its number behind that of zero. -/
theorem toNat_digit {n : ℕ} (h : n < 10) : (UInt8.ofNat (0x30 + n)).toNat = 0x30 + n := by
  rw [UInt8.toNat_ofNat']
  exact Nat.mod_eq_of_lt (by omega)

/-- A digit is no NUL. -/
theorem digit_ne_zero {n : ℕ} (h : n < 10) : UInt8.ofNat (0x30 + n) ≠ 0 := by
  intro hzero
  have hdigit := toNat_digit h
  rw [hzero, UInt8.toNat_zero] at hdigit
  omega

/-- The first of the digits. -/
theorem lead_lt {width n : ℕ} (h : n < 10 ^ (width + 1)) : n / 10 ^ width < 10 := by
  rw [Nat.div_lt_iff_lt_mul (by positivity), mul_comm, ← pow_succ]
  exact h

/-- The bytes of a field are digits. -/
theorem digit_of_mem_paddedDigits {width n : ℕ} (h : n < 10 ^ width) {b : UInt8}
    (hb : b ∈ paddedDigits width n) : 0x30 ≤ b.toNat ∧ b.toNat ≤ 0x39 := by
  induction width generalizing n with
  | zero => cases hb
  | succ width ih =>
    have hlead := lead_lt h
    rcases List.mem_cons.1 hb with rfl | hb
    · rw [toNat_digit hlead]
      exact ⟨Nat.le_add_right _ _, by omega⟩
    · exact ih (Nat.mod_lt _ (by positivity)) hb

/-- Digits have no NUL among them. -/
theorem zero_notMem_paddedDigits {width n : ℕ} (h : n < 10 ^ width) : 0 ∉ paddedDigits width n := by
  intro hmem
  have hdigit := digit_of_mem_paddedDigits h hmem
  rw [UInt8.toNat_zero] at hdigit
  omega

/-! ### The number of a run of digits -/

/-- The number that a run of digits continues `value` to. -/
def digitsFrom (value : ℕ) (digits : List UInt8) : ℕ :=
  digits.foldl (fun value b ↦ value * 10 + (b.toNat - 0x30)) value

/-- The number of a run of digits. -/
def digitsValue (digits : List UInt8) : ℕ := digitsFrom 0 digits

/-- **Digits are read back.** -/
theorem digitsFrom_paddedDigits {width n : ℕ} (value : ℕ) (h : n < 10 ^ width) :
    digitsFrom value (paddedDigits width n) = value * 10 ^ width + n := by
  induction width generalizing value n with
  | zero =>
    obtain rfl : n = 0 := Nat.lt_one_iff.1 h
    simp [digitsFrom, paddedDigits]
  | succ width ih =>
    have hstep : digitsFrom value (paddedDigits (width + 1) n) =
        digitsFrom (value * 10 + n / 10 ^ width) (paddedDigits width (n % 10 ^ width)) := by
      rw [digitsFrom, paddedDigits, List.foldl_cons, toNat_digit (lead_lt h),
        Nat.add_sub_cancel_left,
        digitsFrom]
    have hsplit := Nat.div_add_mod n (10 ^ width)
    rw [hstep, ih _ (Nat.mod_lt _ (by positivity)), pow_succ]
    calc (value * 10 + n / 10 ^ width) * 10 ^ width + n % 10 ^ width
        = value * (10 ^ width * 10) + (10 ^ width * (n / 10 ^ width) + n % 10 ^ width) := by ring
      _ = value * (10 ^ width * 10) + n := by rw [hsplit]

/-- **A field has the number it was made for.** -/
theorem digitsValue_paddedDigits {width n : ℕ} (h : n < 10 ^ width) :
    digitsValue (paddedDigits width n) = n := by
  rw [digitsValue, digitsFrom_paddedDigits 0 h, Nat.zero_mul, Nat.zero_add]

/-- A number does not get smaller by more digits. -/
theorem le_digitsFrom (value : ℕ) (digits : List UInt8) : value ≤ digitsFrom value digits := by
  induction digits generalizing value with
  | nil => exact le_rfl
  | cons b digits ih =>
    have hrest := ih (value * 10 + (b.toNat - 0x30))
    rw [digitsFrom, List.foldl_cons, ← digitsFrom]
    omega

/-- One field at one place. -/
theorem eq_of_front {width n n' : ℕ} {l : List UInt8} (h : n < 10 ^ width) (h' : n' < 10 ^ width)
    (hfront : paddedDigits width n <+: l) (hfront' : paddedDigits width n' <+: l) : n = n' := by
  have heq := List.prefix_of_prefix_length_le hfront hfront' (by simp)
  have heq := heq.eq_of_length (by simp)
  rw [← digitsValue_paddedDigits h, heq, digitsValue_paddedDigits h']

/-! ### Texts read field by field -/

/-- Two parts, one behind the other. -/
theorem prefix_append_iff {α : Type*} {a b l : List α} {k : ℕ} :
    a ++ b <+: l.drop k ↔ a <+: l.drop k ∧ b <+: l.drop (k + a.length) := by
  rw [← List.drop_drop]
  generalize l.drop k = l
  constructor
  · rintro ⟨rest, rfl⟩
    rw [List.append_assoc, List.drop_left]
    exact ⟨List.prefix_append a _, List.prefix_append b rest⟩
  · rintro ⟨⟨rest, rfl⟩, h⟩
    rw [List.drop_left] at h
    exact (List.prefix_append_right_inj a).2 h

/-- A list is a prefix of its length only when it is the whole. -/
theorem eq_iff_front {α : Type*} {a l : List α} : l = a ↔ a <+: l ∧ l.length = a.length :=
  ⟨fun h ↦ ⟨h ▸ List.prefix_rfl, h ▸ rfl⟩, fun ⟨h, hlength⟩ ↦ (h.eq_of_length hlength.symm).symm⟩

namespace CString

/-- **One byte**, and what follows it. -/
theorem field_iff {s : CString} {k : ℕ} {b : UInt8} {a : List UInt8} (hb : b ≠ 0) :
    b :: a <+: s.bytes.drop k ↔ s.byteAt k = b ∧ a <+: s.bytes.drop (k + 1) := by
  unfold byteAt
  rw [List.getD_eq_getElem?_getD, ← List.head?_drop, ← List.drop_drop]
  cases s.bytes.drop k with
  | nil => simp [Ne.symm hb]
  | cons c rest => simp [eq_comm]

end CString
