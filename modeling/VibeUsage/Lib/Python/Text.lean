import VibeUsage.Lib.Utf8

/-!
# Python strings

A `str` is a sequence of code points, surrogates among them; only one without surrogates has a UTF-8
encoding. `strip`, `splitlines` and `int(text, 0)` go by what Unicode calls a space, a line boundary
and a decimal digit.

The functions are executable. Only the few tables that they need are here: the spaces, the line
boundaries, and the zeros of the decimal digits.
-/

namespace Python

/-- A code point. -/
abbrev CodePoint : Type := Fin 0x110000

/-- `str`. -/
abbrev PyStr : Type := List CodePoint

/-- `==` on strings is equality. -/
instance lawfulBEqPyStr : LawfulBEq PyStr := inferInstance

theorem toNat_lt (c : Char) : c.toNat < 0x110000 := by
  have := (Utf8.isScalar_toNat c).1
  omega

/-- A string literal. -/
def py (text : String) : PyStr := text.toList.map fun c ↦ ⟨c.toNat, toNat_lt c⟩

/-! ### UTF-8 -/

/-- `text.encode("utf-8")`: none when there is a surrogate. -/
def encodeUtf8 : PyStr → Option (List UInt8)
  | [] => some []
  | c :: text =>
    if Utf8.IsScalar c.val then (Utf8.encode c.val ++ ·) <$> encodeUtf8 text else none

/-- The first character of some bytes, and what follows it. -/
def decodeOne : List UInt8 → Option (CodePoint × List UInt8)
  | [] => none
  | a :: rest =>
    if a < 0x80 then some (Fin.ofNat _ a.toNat, rest)
    else if a < 0xC2 then none
    else match rest with
      | [] => none
      | b :: rest =>
        if ¬ (0x80 ≤ b ∧ b ≤ 0xBF) then none
        else if a < 0xE0 then some (Fin.ofNat _ (Utf8.extend (a.toNat - 0xC0) b), rest)
        else match rest with
          | [] => none
          | c :: rest =>
            let n := Utf8.extend (Utf8.extend (a.toNat - 0xE0) b) c
            if ¬ (0x80 ≤ c ∧ c ≤ 0xBF) then none
            else if a < 0xF0 then
              if 0x800 ≤ n ∧ Utf8.IsScalar n then some (Fin.ofNat _ n, rest) else none
            else match rest with
              | [] => none
              | d :: rest =>
                let n := Utf8.extend (Utf8.extend (Utf8.extend (a.toNat - 0xF0) b) c) d
                if 0x80 ≤ d ∧ d ≤ 0xBF ∧ 0x10000 ≤ n ∧ Utf8.IsScalar n then
                  some (Fin.ofNat _ n, rest)
                else none

/-- `data.decode("utf-8", "strict")`, for data of at most `n` bytes. -/
def decodeUpTo : ℕ → List UInt8 → Option PyStr
  | _, [] => some []
  | 0, _ :: _ => none
  | n + 1, data => do
    let (c, rest) ← decodeOne data
    return c :: (← decodeUpTo n rest)

/-- `data.decode("utf-8", "strict")`. -/
def decodeUtf8 (data : List UInt8) : Option PyStr := decodeUpTo data.length data

/-- `data.decode("ascii", "strict")`. -/
def decodeAscii (data : List UInt8) : Option PyStr :=
  data.mapM fun b ↦ if b < 0x80 then some (Fin.ofNat _ b.toNat) else none

/-! ### Spaces and lines -/

/-- `c.isspace()`. -/
def isSpace (c : CodePoint) : Bool :=
  decide (c.val ∈ [0x20, 0x85, 0xA0, 0x1680, 0x2028, 0x2029, 0x202F, 0x205F, 0x3000]) ||
    decide (0x09 ≤ c.val ∧ c.val ≤ 0x0D) || decide (0x1C ≤ c.val ∧ c.val ≤ 0x1F) ||
    decide (0x2000 ≤ c.val ∧ c.val ≤ 0x200A)

/-- What is left between the characters with `p` at both ends. -/
def stripWhere (p : CodePoint → Bool) (text : PyStr) : PyStr :=
  (((text.dropWhile p).reverse).dropWhile p).reverse

/-- `text.strip()`. -/
def strip (text : PyStr) : PyStr := stripWhere isSpace text

/-- What reading in text mode makes of line ends. -/
def universalNewlines : PyStr → PyStr
  | [] => []
  | c :: text =>
    if c = 0x0D then
      match text with
      | d :: rest => if d = 0x0A then 0x0A :: universalNewlines rest
        else 0x0A :: universalNewlines (d :: rest)
      | [] => [0x0A]
    else c :: universalNewlines text

/-- A line boundary of `splitlines`. -/
def isLineBreak (c : CodePoint) : Bool :=
  decide (c.val ∈ [0x0A, 0x0B, 0x0C, 0x0D, 0x1C, 0x1D, 0x1E, 0x85, 0x2028, 0x2029])

/-- `text.splitlines()`, for text with universal newlines; `line` is the line so far, backwards. -/
def splitlinesFrom : PyStr → PyStr → List PyStr
  | line, [] => if line = [] then [] else [line.reverse]
  | line, c :: text =>
    if isLineBreak c then line.reverse :: splitlinesFrom [] text
    else splitlinesFrom (c :: line) text

/-- `text.splitlines()`, for text with universal newlines. -/
def splitlines (text : PyStr) : List PyStr := splitlinesFrom [] text

/-! ### Numbers -/

/-- The zeros of the decimal digits of Unicode. -/
def decimalZeros : List ℕ :=
  [0x30, 0x660, 0x6F0, 0x7C0, 0x966, 0x9E6, 0xA66, 0xAE6, 0xB66, 0xBE6, 0xC66, 0xCE6, 0xD66, 0xDE6,
    0xE50, 0xED0, 0xF20, 0x1040, 0x1090, 0x17E0, 0x1810, 0x1946, 0x19D0, 0x1A80, 0x1A90, 0x1B50,
    0x1BB0, 0x1C40, 0x1C50, 0xA620, 0xA8D0, 0xA900, 0xA9D0, 0xA9F0, 0xAA50, 0xABF0, 0xFF10, 0x104A0,
    0x10D30, 0x11066, 0x110F0, 0x11136, 0x111D0, 0x112F0, 0x11450, 0x114D0, 0x11650, 0x116C0,
    0x11730, 0x118E0, 0x11950, 0x11C50, 0x11D50, 0x11DA0, 0x16A60, 0x16AC0, 0x16B50, 0x1D7CE,
    0x1D7D8, 0x1D7E2, 0x1D7EC, 0x1D7F6, 0x1E140, 0x1E2F0, 0x1E950, 0x1FBF0]

/-- The value of a digit in any base up to sixteen. -/
def digitValue (c : CodePoint) : Option ℕ :=
  if 0x41 ≤ c.val ∧ c.val ≤ 0x46 then some (c.val - 0x41 + 10)
  else if 0x61 ≤ c.val ∧ c.val ≤ 0x66 then some (c.val - 0x61 + 10)
  else (decimalZeros.find? fun first ↦ decide (first ≤ c.val ∧ c.val < first + 10)).map (c.val - ·)

/-- Digits of a base with single underscores between them; `value` is what was read so far. -/
def digitsFrom (base : ℕ) : ℕ → PyStr → Option ℕ
  | value, [] => some value
  | value, c :: text =>
    if c = 0x5F then
      match text with
      | [] => none
      | d :: rest =>
        match digitValue d with
        | none => none
        | some digit => if digit < base then digitsFrom base (value * base + digit) rest else none
    else
      match digitValue c with
      | none => none
      | some digit => if digit < base then digitsFrom base (value * base + digit) text else none

/-- At least one digit. -/
def digits (base : ℕ) (text : PyStr) : Option ℕ :=
  match text with
  | [] => none
  | c :: _ => if c = 0x5F then none else digitsFrom base 0 text

/-- A number without its sign, in the base that its first characters name. -/
def unsigned0 (text : PyStr) : Option ℕ :=
  match text with
  | first :: letter :: rest =>
    if digitValue first ≠ some 0 then digits 10 text
    else
      let base := if letter = 0x78 ∨ letter = 0x58 then some 16
        else if letter = 0x6F ∨ letter = 0x4F then some 8
        else if letter = 0x62 ∨ letter = 0x42 then some 2
        else none
      match base with
      | some base => digits base (if rest.head? = some 0x5F then rest.tail else rest)
      | none => (digits 10 text).filter (· = 0)
  | _ => digits 10 text

/-- A space that `int` skips: the separators of ASCII are none. -/
def isNumberSpace (c : CodePoint) : Bool := isSpace c && !decide (0x1C ≤ c.val ∧ c.val ≤ 0x1F)

/-- `int(text, 0)`: none when it raises `ValueError`. -/
def int0 (text : PyStr) : Option ℤ :=
  match stripWhere isNumberSpace text with
  | [] => none
  | c :: rest =>
    if c = 0x2D then (unsigned0 rest).map fun n ↦ -(n : ℤ)
    else (unsigned0 (if c = 0x2B then rest else c :: rest)).map fun n ↦ (n : ℤ)

/-- `"{:x}".format(n)`. -/
def hex (n : ℤ) : PyStr :=
  (if n < 0 then py "-" else []) ++ py (String.ofList (Nat.toDigits 16 n.natAbs))

example : int0 (py " 0x1_0000") = some 0x10000 ∧ int0 (py "010") = none ∧ int0 (py "-00") =
  some 0 := by
  decide +kernel

end Python
