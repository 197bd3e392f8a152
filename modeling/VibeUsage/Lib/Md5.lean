import Mathlib

/-!
# MD5

The digest of RFC 1321: blocks of sixteen words, least significant byte first, and four rounds of
sixteen steps on a state of four words.

It is executable, which is all that is asked of it: no property of a digest is used.
-/

namespace Md5

/-- The four words. -/
structure State where
  a : UInt32
  b : UInt32
  c : UInt32
  d : UInt32
deriving DecidableEq

/-- `2 ^ 32` times the sine of 1 to 64, without sign and fraction. -/
def sines : List UInt32 :=
  [0xD76AA478, 0xE8C7B756, 0x242070DB, 0xC1BDCEEE, 0xF57C0FAF, 0x4787C62A, 0xA8304613, 0xFD469501,
    0x698098D8, 0x8B44F7AF, 0xFFFF5BB1, 0x895CD7BE, 0x6B901122, 0xFD987193, 0xA679438E, 0x49B40821,
    0xF61E2562, 0xC040B340, 0x265E5A51, 0xE9B6C7AA, 0xD62F105D, 0x02441453, 0xD8A1E681, 0xE7D3FBC8,
    0x21E1CDE6, 0xC33707D6, 0xF4D50D87, 0x455A14ED, 0xA9E3E905, 0xFCEFA3F8, 0x676F02D9, 0x8D2A4C8A,
    0xFFFA3942, 0x8771F681, 0x6D9D6122, 0xFDE5380C, 0xA4BEEA44, 0x4BDECFA9, 0xF6BB4B60, 0xBEBFBC70,
    0x289B7EC6, 0xEAA127FA, 0xD4EF3085, 0x04881D05, 0xD9D4D039, 0xE6DB99E5, 0x1FA27CF8, 0xC4AC5665,
    0xF4292244, 0x432AFF97, 0xAB9423A7, 0xFC93A039, 0x655B59C3, 0x8F0CCC92, 0xFFEFF47D, 0x85845DD1,
    0x6FA87E4F, 0xFE2CE6E0, 0xA3014314, 0x4E0811A1, 0xF7537E82, 0xBD3AF235, 0x2AD7D2BB, 0xEB86D391]

/-- How far each step of a round rotates. -/
def rotations (round : ℕ) : List ℕ :=
  if round = 0 then [7, 12, 17, 22]
  else if round = 1 then [5, 9, 14, 20]
  else if round = 2 then [4, 11, 16, 23]
  else [6, 10, 15, 21]

def rotate (x : UInt32) (n : ℕ) : UInt32 := ⟨x.toBitVec.rotateLeft n⟩

/-- The function of the round, and the word of the block that step `i` takes. -/
def choose (s : State) (i : ℕ) : UInt32 × ℕ :=
  if i < 16 then ((s.b &&& s.c) ||| (~~~s.b &&& s.d), i)
  else if i < 32 then ((s.d &&& s.b) ||| (~~~s.d &&& s.c), (5 * i + 1) % 16)
  else if i < 48 then (s.b ^^^ s.c ^^^ s.d, (3 * i + 5) % 16)
  else (s.c ^^^ (s.b ||| ~~~s.d), 7 * i % 16)

/-- Step `i` on a block. -/
def step (block : List UInt32) (s : State) (i : ℕ) : State :=
  let f := (choose s i).1 + s.a + sines.getD i 0 + block.getD (choose s i).2 0
  { a := s.d, b := s.b + rotate f ((rotations (i / 16)).getD (i % 4) 0), c := s.b, d := s.c }

def compress (s : State) (block : List UInt32) : State :=
  let t := (List.range 64).foldl (step block) s
  { a := s.a + t.a, b := s.b + t.b, c := s.c + t.c, d := s.d + t.d }

/-- The words of some bytes. -/
def words : List UInt8 → List UInt32
  | x :: y :: z :: w :: rest =>
    (x.toUInt32 ||| y.toUInt32 <<< 8 ||| z.toUInt32 <<< 16 ||| w.toUInt32 <<< 24) :: words rest
  | _ => []

/-- A one bit, zeros up to the last eight bytes of a block, and the length in bits. -/
def pad (data : List UInt8) : List UInt8 :=
  data ++ 0x80 :: List.replicate ((119 - data.length % 64) % 64) 0 ++
    (List.range 8).map fun k ↦ UInt8.ofNat (8 * data.length / 256 ^ k)

/-- Block after block. -/
def blocks (s : State) : ℕ → List UInt32 → State
  | 0, _ => s
  | n + 1, ws => blocks (compress s (ws.take 16)) n (ws.drop 16)

def bytes (x : UInt32) : List UInt8 :=
  [x.toUInt8, (x >>> 8).toUInt8, (x >>> 16).toUInt8, (x >>> 24).toUInt8]

/-- The digest of some bytes. -/
def digest (data : List UInt8) : List UInt8 :=
  let padded := pad data
  let s := blocks ⟨0x67452301, 0xEFCDAB89, 0x98BADCFE, 0x10325476⟩ (padded.length / 64)
    (words padded)
  bytes s.a ++ bytes s.b ++ bytes s.c ++ bytes s.d

/-- The digest of nothing. -/
example : digest [] = [0xD4, 0x1D, 0x8C, 0xD9, 0x8F, 0x00, 0xB2, 0x04, 0xE9, 0x80, 0x09, 0x98,
  0xEC, 0xF8,
    0x42, 0x7E] := by
  decide +kernel

end Md5
