import VibeUsage.Lib.CString

/-!
# Base64

The encoding of RFC 4648, section 4: three bytes are a number of 24 bits, written as four symbols of
six bits each. The last group may have one or two bytes; it is filled up with zero bits and its
symbols with padding.

Groups do not look at each other, so that whole groups may be encoded before what follows is known.

The lemmas of the second half turn the shifts and masks with which C code picks a symbol into the
divisions of `encode`.
-/

namespace Base64

/-- The symbol of a number below 64. -/
def symbol (n : ℕ) : UInt8 :=
  if n < 26 then UInt8.ofNat (65 + n)
  else if n < 52 then UInt8.ofNat (97 + (n - 26))
  else if n < 62 then UInt8.ofNat (48 + (n - 52))
  else if n = 62 then 43
  else 47

/-- `=` -/
def pad : UInt8 := 61

/-- A group of 24 bits. -/
def group (a b c : UInt8) : ℕ := a.toNat * 2 ^ 16 + b.toNat * 2 ^ 8 + c.toNat

def encode : List UInt8 → List UInt8
  | [] => []
  | [a] => [symbol (group a 0 0 / 2 ^ 18), symbol (group a 0 0 / 2 ^ 12 % 64), pad, pad]
  | [a, b] => [symbol (group a b 0 / 2 ^ 18), symbol (group a b 0 / 2 ^ 12 % 64),
      symbol (group a b 0 / 2 ^ 6 % 64), pad]
  | a :: b :: c :: rest => symbol (group a b c / 2 ^ 18) :: symbol (group a b c / 2 ^ 12 % 64) ::
      symbol (group a b c / 2 ^ 6 % 64) :: symbol (group a b c % 64) :: encode rest

/-- Every group, also the last, has four symbols. -/
theorem length_encode (data : List UInt8) :
    (encode data).length = (data.length + 2) / 3 * 4 := by
  induction data using encode.induct with
  | case1 => rfl
  | case2 a => simp [encode]
  | case3 a b => simp [encode]
  | case4 a b c rest ih =>
    rw [encode]
    simp only [List.length_cons, ih]
    omega

/-! ### The symbols from the bytes -/

/-- The first symbol has the high six bits of the first byte. -/
theorem group_div_first (a b c : UInt8) : group a b c / 2 ^ 18 = (a >>> 2).toNat := by
  have hb := b.toNat_lt
  have hc := c.toNat_lt
  have hshift : (2 : UInt8).toNat % 8 = 2 := rfl
  rw [UInt8.toNat_shiftRight, hshift, Nat.shiftRight_eq_div_pow, group]
  omega

/-- The low bits of one byte before the high bits of the next. -/
theorem toNat_or_of_lt {high low : UInt8} {k : ℕ} (hhigh : high.toNat % 2 ^ k = 0)
    (hlow : low.toNat < 2 ^ k) : (high ||| low).toNat = high.toNat + low.toNat := by
  have hdiv : high.toNat = (high.toNat / 2 ^ k) <<< k := by
    rw [Nat.shiftLeft_eq]
    exact (Nat.div_mul_cancel (Nat.dvd_of_mod_eq_zero hhigh)).symm
  rw [UInt8.toNat_or, hdiv, Nat.shiftLeft_add_eq_or_of_lt hlow]

/-- A mask of low bits is a remainder. -/
theorem toNat_and_mask (a : UInt8) {mask : UInt8} {k : ℕ} (h : mask.toNat = 2 ^ k - 1) :
    (a &&& mask).toNat = a.toNat % 2 ^ k := by
  rw [UInt8.toNat_and, h, Nat.and_two_pow_sub_one_eq_mod]

/-- The second has the low two of the first and the high four of the second. -/
theorem group_div_second (a b c : UInt8) :
    group a b c / 2 ^ 12 % 64 = ((a &&& 3) <<< 4 ||| b >>> 4).toNat := by
  have ha := a.toNat_lt
  have hb := b.toNat_lt
  have hc := c.toNat_lt
  have hshift : (4 : UInt8).toNat % 8 = 4 := rfl
  have hhigh : ((a &&& 3) <<< 4).toNat = a.toNat % 4 * 16 := by
    rw [UInt8.toNat_shiftLeft, hshift, toNat_and_mask a (k := 2) rfl, Nat.shiftLeft_eq]
    omega
  have hlow : (b >>> 4).toNat = b.toNat / 16 := by
    rw [UInt8.toNat_shiftRight, hshift, Nat.shiftRight_eq_div_pow]
  rw [toNat_or_of_lt (k := 4) (by omega) (by omega), hhigh, hlow, group]
  omega

/-- The third has the low four of the second and the high two of the third. -/
theorem group_div_third (a b c : UInt8) :
    group a b c / 2 ^ 6 % 64 = ((b &&& 15) <<< 2 ||| c >>> 6).toNat := by
  have ha := a.toNat_lt
  have hb := b.toNat_lt
  have hc := c.toNat_lt
  have htwo : (2 : UInt8).toNat % 8 = 2 := rfl
  have hsix : (6 : UInt8).toNat % 8 = 6 := rfl
  have hhigh : ((b &&& 15) <<< 2).toNat = b.toNat % 16 * 4 := by
    rw [UInt8.toNat_shiftLeft, htwo, toNat_and_mask b (k := 4) rfl, Nat.shiftLeft_eq]
    omega
  have hlow : (c >>> 6).toNat = c.toNat / 64 := by
    rw [UInt8.toNat_shiftRight, hsix, Nat.shiftRight_eq_div_pow]
  rw [toNat_or_of_lt (k := 2) (by omega) (by omega), hhigh, hlow, group]
  omega

/-- The fourth has the low six of the third. -/
theorem group_mod (a b c : UInt8) : group a b c % 64 = (c &&& 63).toNat := by
  rw [toNat_and_mask c (k := 6) rfl, group]
  omega

end Base64
