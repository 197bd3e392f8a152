import Mathlib

/-!
# What a reader finds on a Type 2 tag

The user memory of an NFC Type 2 tag is a sequence of blocks of type, length and value. A reader
takes the first block that holds an NDEF message; null blocks are skipped, a terminator ends the
sequence. A length is one byte, or 0xFF and two bytes.

`readMessage_of_readLength` is the rule for a message that stands first; what stands behind it is
not looked at.
-/

namespace Tlv

/-- The length of a block and what follows it. -/
def readLength : List UInt8 → Option (ℕ × List UInt8)
  | [] => none
  | n :: rest =>
    if n = 0xFF then
      match rest with
      | high :: low :: rest => some (high.toNat * 256 + low.toNat, rest)
      | _ => none
    else some (n.toNat, rest)

/-- A length of one byte. -/
theorem readLength_short {n : UInt8} (h : n ≠ 0xFF) (rest : List UInt8) :
    readLength (n :: rest) = some (n.toNat, rest) := by
  unfold readLength
  exact if_neg h

/-- A length of three bytes, of which the first says so. -/
theorem readLength_long (high low : UInt8) (rest : List UInt8) :
    readLength (0xFF :: high :: low :: rest) = some (high.toNat * 256 + low.toNat, rest) := rfl

/-- A length has at least one byte. -/
theorem length_readLength {data rest : List UInt8} {n : ℕ} (h : readLength data = some (n, rest)) :
    rest.length < data.length := by
  unfold readLength at h
  split at h
  · cases h
  · split at h
    · split at h
      · obtain ⟨-, rfl⟩ := Prod.mk.inj (Option.some.inj h)
        simp only [List.length_cons]
        omega
      · cases h
    · obtain ⟨-, rfl⟩ := Prod.mk.inj (Option.some.inj h)
      exact Nat.lt_succ_self _

/-- The NDEF message a reader finds. -/
def readMessage : List UInt8 → Option (List UInt8)
  | [] => none
  | kind :: rest =>
    if kind = 0x00 then readMessage rest
    else if kind = 0xFE then none
    else
      match _h : readLength rest with
      | none => none
      | some (n, value) =>
        if value.length < n then none
        else if kind = 0x03 then some (value.take n)
        else readMessage (value.drop n)
termination_by data => data.length
decreasing_by
  · simp
  · have hlen := length_readLength _h
    simp only [List.length_drop, List.length_cons]
    omega

/-- A message at the start is found, whatever follows it. -/
theorem readMessage_of_readLength {rest value : List UInt8} {n : ℕ}
    (h : readLength rest = some (n, value)) (hfit : n ≤ value.length) :
    readMessage (0x03 :: rest) = some (value.take n) := by
  rw [readMessage, if_neg (by decide), if_neg (by decide)]
  split
  · rename_i hnone
    rw [h] at hnone
    cases hnone
  · rename_i hsome
    rw [h] at hsome
    obtain ⟨rfl, rfl⟩ := Prod.mk.inj (Option.some.inj hsome)
    rw [if_neg (by omega), if_pos rfl]

end Tlv
