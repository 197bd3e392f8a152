import Mathlib

/-!
# UTF-8 by arithmetic

A decoder reads a character as a lead byte and continuation bytes and assembles the code point with
shifts and masks. `encode` states the four shapes of a character with division and remainder, where
`omega` can work, and `utf8EncodeChar_eq` says that it is the library's encoding. The lemmas of the
second half turn the shifts and masks of such code into the same arithmetic.

Nothing here is about a decoder. One that shifts and masks is compared with `encode` by
`extend_tail` for a continuation byte and the lemmas about the lead bytes.
-/

namespace Utf8

/-- The scalar values: every code point but the surrogates. -/
def IsScalar (n : ℕ) : Prop := n ≤ 0x10FFFF ∧ ¬ (0xD800 ≤ n ∧ n ≤ 0xDFFF)

instance (n : ℕ) : Decidable (IsScalar n) := inferInstanceAs (Decidable (_ ∧ _))

/-- A character is no surrogate. -/
theorem isScalar_toNat (c : Char) : IsScalar c.toNat := by
  rcases c.valid with h | ⟨h, h'⟩
  · exact ⟨by show c.val.toNat ≤ _; omega, by show ¬ (_ ≤ c.val.toNat ∧ _); omega⟩
  · exact ⟨by show c.val.toNat ≤ _; omega, by show ¬ (_ ∧ c.val.toNat ≤ _); omega⟩

/-- Its number comes back. -/
theorem toNat_ofNat {n : ℕ} (h : IsScalar n) : (Char.ofNat n).toNat = n := by
  have hvalid : n.isValidChar := by
    obtain ⟨hle, hsurrogate⟩ := h
    rcases Nat.lt_or_ge n 0xD800 with hlt | hge
    · exact Or.inl hlt
    · exact Or.inr ⟨by omega, by omega⟩
  rw [Char.ofNat, dif_pos hvalid]
  rfl

/-- A continuation byte carrying six bits. -/
def tail (n : ℕ) : UInt8 := UInt8.ofNat (0x80 + n % 64)

/-- The octets of the code point `n`. -/
def encode (n : ℕ) : List UInt8 :=
  if n < 0x80 then [UInt8.ofNat n]
  else if n < 0x800 then [UInt8.ofNat (0xC0 + n / 64), tail n]
  else if n < 0x10000 then [UInt8.ofNat (0xE0 + n / 4096), tail (n / 64), tail n]
  else [UInt8.ofNat (0xF0 + n / 262144), tail (n / 4096), tail (n / 64), tail n]

/-- **`encode` is the library's encoding.** -/
theorem utf8EncodeChar_eq (c : Char) : String.utf8EncodeChar c = encode c.toNat := by
  have hle := (isScalar_toNat c).1
  show String.utf8EncodeChar c = encode c.val.toNat
  have hle' : c.val.toNat ≤ 0x10FFFF := hle
  unfold String.utf8EncodeChar encode tail
  generalize c.val.toNat = n at hle'
  dsimp only
  by_cases h₁ : n < 0x80
  · rw [if_pos (show n ≤ 0x7F by omega), if_pos h₁]
  rw [if_neg (show ¬ n ≤ 0x7F by omega), if_neg h₁]
  by_cases h₂ : n < 0x800
  · rw [if_pos (show n ≤ 0x7FF by omega), if_pos h₂,
      show n / 64 % 0x20 + 0xC0 = 0xC0 + n / 64 by omega, Nat.add_comm (n % 0x40)]
  rw [if_neg (show ¬ n ≤ 0x7FF by omega), if_neg h₂]
  by_cases h₃ : n < 0x10000
  · rw [if_pos (show n ≤ 0xFFFF by omega), if_pos h₃,
      show n / 4096 % 0x10 + 0xE0 = 0xE0 + n / 4096 by omega, Nat.add_comm (n / 64 % 0x40),
      Nat.add_comm (n % 0x40)]
  rw [if_neg (show ¬ n ≤ 0xFFFF by omega), if_neg h₃,
    show n / 262144 % 0x08 + 0xF0 = 0xF0 + n / 262144 by omega, Nat.add_comm (n / 4096 % 0x40),
    Nat.add_comm (n / 64 % 0x40), Nat.add_comm (n % 0x40)]

/-- **A character is encoded** as the format says. -/
theorem utf8EncodeChar_ofNat {n : ℕ} (h : IsScalar n) :
    String.utf8EncodeChar (Char.ofNat n) = encode n := by
  rw [utf8EncodeChar_eq, toNat_ofNat h]

/-! ### The octets of a character -/

/-- A byte is its number. -/
theorem toNat_ofNat_of_lt {n : ℕ} (h : n < 256) : (UInt8.ofNat n).toNat = n := by
  rw [UInt8.toNat_ofNat', Nat.mod_eq_of_lt h]

/-- A byte is known by its number. -/
theorem eq_ofNat {b : UInt8} {n : ℕ} (h : b.toNat = n) : b = UInt8.ofNat n := by
  rw [← h, UInt8.ofNat_toNat]

@[simp] theorem toNat_tail (n : ℕ) : (tail n).toNat = 0x80 + n % 64 :=
  toNat_ofNat_of_lt (by omega)

/-- A continuation byte is the tail of any number with its six bits. -/
theorem eq_tail {b : UInt8} {n : ℕ} (hb : 0x80 ≤ b.toNat) (hn : n % 64 = b.toNat - 0x80) :
    b = tail n :=
  eq_ofNat (by omega)

/-- A byte in the range of continuation bytes. -/
def IsTail (b : UInt8) : Prop := 0x80 ≤ b.toNat ∧ b.toNat ≤ 0xBF

/-- A tail is one. -/
theorem isTail_tail (n : ℕ) : IsTail (tail n) := by
  unfold IsTail
  rw [toNat_tail]
  omega

/-- The code point assembled from what came before and one more continuation byte. -/
def extend (n : ℕ) (b : UInt8) : ℕ := n * 64 + (b.toNat - 0x80)

/-- The low six bits come back from their tail. -/
theorem extend_tail (n : ℕ) : extend (n / 64) (tail n) = n := by
  unfold extend
  rw [toNat_tail]
  omega

/-- A lead byte of two and its tail. -/
theorem encode_two {a b : UInt8} (ha : 0xC2 ≤ a.toNat ∧ a.toNat ≤ 0xDF) (hb : IsTail b) :
    encode (extend (a.toNat - 0xC0) b) = [a, b] := by
  obtain ⟨hb, hb'⟩ := hb
  unfold extend encode
  rw [if_neg (by omega), if_pos (by omega), ← eq_ofNat (b := a) (by omega),
    ← eq_tail (b := b) hb (by omega)]

/-- A lead byte of three and its tails, when the code point is not overlong. -/
theorem encode_three {a b c : UInt8} (ha : 0xE0 ≤ a.toNat ∧ a.toNat ≤ 0xEF) (hb : IsTail b)
    (hc : IsTail c) (hmin : 0x800 ≤ extend (extend (a.toNat - 0xE0) b) c) :
    encode (extend (extend (a.toNat - 0xE0) b) c) = [a, b, c] := by
  obtain ⟨hb, hb'⟩ := hb
  obtain ⟨hc, hc'⟩ := hc
  unfold extend at hmin ⊢
  unfold encode
  rw [if_neg (by omega), if_neg (by omega), if_pos (by omega),
    ← eq_ofNat (b := a) (by omega), ← eq_tail (b := b) hb (by omega),
    ← eq_tail (b := c) hc (by omega)]

/-- A lead byte of four and its tails, when the code point is not overlong. -/
theorem encode_four {a b c d : UInt8} (ha : 0xF0 ≤ a.toNat) (hb : IsTail b) (hc : IsTail c)
    (hd : IsTail d) (hmin : 0x10000 ≤ extend (extend (extend (a.toNat - 0xF0) b) c) d) :
    encode (extend (extend (extend (a.toNat - 0xF0) b) c) d) = [a, b, c, d] := by
  obtain ⟨hb, hb'⟩ := hb
  obtain ⟨hc, hc'⟩ := hc
  obtain ⟨hd, hd'⟩ := hd
  unfold extend at hmin ⊢
  unfold encode
  rw [if_neg (by omega), if_neg (by omega), if_neg (by omega),
    ← eq_ofNat (b := a) (by omega), ← eq_tail (b := b) hb (by omega),
    ← eq_tail (b := c) hc (by omega), ← eq_tail (b := d) hd (by omega)]

/-! ### Shifts and masks -/

/-- Low bits beside shifted ones are a sum. -/
theorem shiftLeft_or {b k : ℕ} (h : b < 2 ^ k) (a : ℕ) : a <<< k ||| b = a * 2 ^ k + b := by
  rw [← Nat.shiftLeft_add_eq_or_of_lt h, Nat.shiftLeft_eq]

/-- A mask of low bits is a remainder. -/
theorem and_mask (n k : ℕ) : n &&& (2 ^ k - 1) = n % 2 ^ k := Nat.and_two_pow_sub_one_eq_mod n k

theorem and_63 (n : ℕ) : n &&& 0x3F = n % 64 := and_mask n 6

/-- Or-ing the marker bits of a continuation byte. -/
theorem or_tail (n : ℕ) : 0x80 ||| n &&& 0x3F = 0x80 + n % 64 := by
  have h := shiftLeft_or (k := 6) (b := n % 64) (Nat.mod_lt _ (by decide)) 2
  rw [and_63]
  exact h

/-- What a decoder does with a continuation byte. -/
theorem shiftLeft_or_tail {b : UInt8} (hb : IsTail b) (n : ℕ) :
    n <<< 6 ||| (b.toNat &&& 0x3F) = extend n b := by
  unfold IsTail at hb
  unfold extend
  have hlt : b.toNat % 64 < 2 ^ 6 := by omega
  have h := shiftLeft_or hlt n
  rw [and_63, h]
  omega

end Utf8
