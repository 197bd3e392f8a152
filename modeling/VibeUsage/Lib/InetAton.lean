import VibeUsage.Lib.Decimal
import VibeUsage.Lib.Digits

/-!
# Numeric IPv4 addresses

`inet_aton` reads one to four numbers with dots between them. A number is decimal, octal after a
`0`, or hexadecimal after `0x`, which may be all of it; the last number fills the bytes that the
others leave. A dotted quad is the one spelling of an address as four decimal numbers without
leading zeros.

Implementations differ on a `0x` without digits and on numbers of more than 32 bits: here the one is
zero and the other is refused. All of them read dotted quads (`ReadsQuads`).
-/

namespace Inet

open Rfc8259 (decimalText decimalText_of_lt decimalText_of_le)

def dot : UInt8 := 0x2E

/-- The value of a hexadecimal digit. -/
def digitValue (b : UInt8) : Option ℕ :=
  if 0x30 ≤ b ∧ b ≤ 0x39 then some (b.toNat - 0x30)
  else if 0x41 ≤ b ∧ b ≤ 0x46 then some (b.toNat - 0x37)
  else if 0x61 ≤ b ∧ b ≤ 0x66 then some (b.toNat - 0x57)
  else none

/-- The number that digits continue `n` to. -/
def number (base : ℕ) : ℕ → List UInt8 → Option ℕ
  | n, [] => some n
  | n, b :: digits => do
    let d ← digitValue b
    if d < base then number base (n * base + d) digits else none

/-- The number between two dots. -/
def part : List UInt8 → Option ℕ
  | [] => none
  | [b] => number 10 0 [b]
  | b :: x :: digits =>
    if b ≠ 0x30 then number 10 0 (b :: x :: digits)
    else if x = 0x78 ∨ x = 0x58 then number 16 0 digits
    else number 8 0 (x :: digits)

/-- The address that the numbers are. -/
def address : List ℕ → Option ℕ
  | [a] => if a < 2 ^ 32 then some a else none
  | [a, b] => if a < 2 ^ 8 ∧ b < 2 ^ 24 then some (a * 2 ^ 24 + b) else none
  | [a, b, c] =>
    if a < 2 ^ 8 ∧ b < 2 ^ 8 ∧ c < 2 ^ 16 then some (a * 2 ^ 24 + b * 2 ^ 16 + c) else none
  | [a, b, c, d] =>
    if a < 2 ^ 8 ∧ b < 2 ^ 8 ∧ c < 2 ^ 8 ∧ d < 2 ^ 8 then
      some (a * 2 ^ 24 + b * 2 ^ 16 + c * 2 ^ 8 + d)
    else none
  | _ => none

/-- `inet_aton`, of a text without blanks. -/
def aton (host : List UInt8) : Option ℕ := ((host.splitOn dot).mapM part).bind address

/-- The address of four bytes. -/
def quadAddress (a b c d : ℕ) : ℕ := a * 2 ^ 24 + b * 2 ^ 16 + c * 2 ^ 8 + d

/-- The dotted quad of four bytes. -/
def quad (a b c d : ℕ) : List UInt8 :=
  [dot].intercalate [decimalText a, decimalText b, decimalText c, decimalText d]

/-- A resolver that reads a dotted quad as its bytes. -/
def ReadsQuads (resolve : List UInt8 → Option ℕ) : Prop :=
  ∀ {a b c d : ℕ}, a < 256 → b < 256 → c < 256 → d < 256 →
    resolve (quad a b c d) = some (quadAddress a b c d)

/-- The block of the addresses that have the first `length` bits of `base`. -/
def InBlock (base length address : ℕ) : Prop :=
  address / 2 ^ (32 - length) = base / 2 ^ (32 - length)

instance (base length address : ℕ) : Decidable (InBlock base length address) :=
  inferInstanceAs (Decidable (_ = _))

/-! ### Decimal texts -/

/-- One more digit behind a number. -/
theorem decimalText_snoc {n d : ℕ} (hn : 0 < n) (hd : d < 10) :
    decimalText (n * 10 + d) = decimalText n ++ [UInt8.ofNat (0x30 + d)] := by
  have hdigit : ∀ d < 10, (Nat.digitChar d).toUInt8 = UInt8.ofNat (0x30 + d) := by decide
  rw [decimalText_of_le (by omega), show (n * 10 + d) / 10 = n by omega,
    show (n * 10 + d) % 10 = d by omega, hdigit d hd]

/-- Digits without a leading zero are the text of their number. -/
theorem decimalText_digitsValue {first : UInt8} {digits : List UInt8}
    (hfirst : 0x31 ≤ first.toNat ∧ first.toNat ≤ 0x39)
    (hdigits : ∀ b ∈ digits, 0x30 ≤ b.toNat ∧ b.toNat ≤ 0x39) :
    0 < digitsValue (first :: digits) ∧
      decimalText (digitsValue (first :: digits)) = first :: digits := by
  induction digits using List.reverseRecOn with
  | nil =>
    have hvalue : digitsValue [first] = first.toNat - 0x30 := by
      simp [digitsValue, digitsFrom]
    have hdigit : ∀ n < 10, decimalText n = [UInt8.ofNat (0x30 + n)] := by decide
    rw [hvalue, hdigit _ (by omega), show 0x30 + (first.toNat - 0x30) = first.toNat by omega,
      UInt8.ofNat_toNat]
    exact ⟨by omega, rfl⟩
  | append_singleton digits b ih =>
    obtain ⟨hpos, htext⟩ := ih fun c hc ↦ hdigits c (List.mem_append_left _ hc)
    have hb := hdigits b (by simp)
    have hvalue : digitsValue (first :: (digits ++ [b])) =
        digitsValue (first :: digits) * 10 + (b.toNat - 0x30) := by
      rw [← List.cons_append, digitsValue, digitsFrom, List.foldl_append]
      rfl
    rw [hvalue, decimalText_snoc hpos (by omega), htext,
      show 0x30 + (b.toNat - 0x30) = b.toNat by omega, UInt8.ofNat_toNat]
    exact ⟨by omega, rfl⟩

/-- A number is the one that its text says. -/
theorem digitsValue_decimalText (n : ℕ) : digitsValue (decimalText n) = n := by
  have hdigit : ∀ d < 10, (Nat.digitChar d).toUInt8.toNat - 0x30 = d := by decide
  induction n using Nat.strong_induction_on with
  | _ n ih =>
    rcases Nat.lt_or_ge n 10 with hlt | hge
    · rw [decimalText_of_lt hlt, digitsValue, digitsFrom, List.foldl_cons, List.foldl_nil,
        hdigit n hlt, Nat.zero_mul, Nat.zero_add]
    · have hsnoc : ∀ d : UInt8, digitsValue (decimalText (n / 10) ++ [d]) =
          digitsValue (decimalText (n / 10)) * 10 + (d.toNat - 0x30) := by
        intro d
        rw [digitsValue, digitsFrom, List.foldl_append]
        rfl
      rw [decimalText_of_le hge, hsnoc, ih (n / 10) (by omega), hdigit _ (Nat.mod_lt _ (by decide))]
      omega

/-! ### Dotted quads -/

/-- A part without a leading zero is read in decimal. -/
theorem part_decimalText : ∀ n < 256, part (decimalText n) = some n := by decide +kernel

/-- A part has no dot. -/
theorem dot_notMem_decimalText : ∀ n < 256, dot ∉ decimalText n := by decide +kernel

/-- **A dotted quad is read as its bytes.** -/
theorem aton_quad : ReadsQuads aton := by
  intro a b c d ha hb hc hd
  have hsplit : (quad a b c d).splitOn dot =
      [decimalText a, decimalText b, decimalText c, decimalText d] := by
    refine List.splitOn_intercalate dot (fun text htext ↦ ?_) (by simp)
    simp only [List.mem_cons, List.not_mem_nil, or_false] at htext
    rcases htext with rfl | rfl | rfl | rfl
    · exact dot_notMem_decimalText a ha
    · exact dot_notMem_decimalText b hb
    · exact dot_notMem_decimalText c hc
    · exact dot_notMem_decimalText d hd
  rw [aton, hsplit]
  simp only [List.mapM_cons, List.mapM_nil, part_decimalText a ha, part_decimalText b hb,
    part_decimalText c hc, part_decimalText d hd]
  exact if_pos ⟨ha, hb, hc, hd⟩

/-- A part ends in a digit. -/
theorem getLast_decimalText :
    ∀ n < 256, ∃ b, (decimalText n).getLast? = some b ∧ 0x30 ≤ b ∧ b ≤ 0x39 := by
  decide +kernel

/-- A dotted quad ends in a decimal digit. -/
theorem getLast_quad {a b c d : ℕ} (hd : d < 256) :
    ∃ last, (quad a b c d).getLast? = some last ∧ 0x30 ≤ last ∧ last ≤ 0x39 := by
  obtain ⟨last, hlast, hdigit⟩ := getLast_decimalText d hd
  refine ⟨last, ?_, hdigit⟩
  have hquad : quad a b c d = decimalText a ++ dot :: (decimalText b ++ dot :: (decimalText c ++
      dot :: decimalText d)) := by
    simp [quad, List.intercalate]
  rw [hquad]
  simp [List.getLast?_append, List.getLast?_cons, hlast]

end Inet
