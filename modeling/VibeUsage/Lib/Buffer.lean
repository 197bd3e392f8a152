import Mathlib

/-!
# A caller's array of bytes

An array of bytes that a C function is given with its size, and the string it holds. A store beyond
its end has no result, and neither has a read of a string without a terminator.

So an `Option` that is `some` says that a function stayed inside the array, and a result about what
the array holds says that it is terminated.
-/

namespace Buffer

/-- Store bytes from an index on. -/
def store (buffer : List UInt8) (index : ℕ) (data : List UInt8) : Option (List UInt8) :=
  if index + data.length ≤ buffer.length then
    some (buffer.take index ++ data ++ buffer.drop (index + data.length))
  else none

/-- The string up to the first terminator. -/
def string (buffer : List UInt8) : Option (List UInt8) :=
  if 0 ∈ buffer then some (buffer.takeWhile (· ≠ 0)) else none

/-- The buffer starts with this text and its terminator. -/
def Holds (buffer text : List UInt8) : Prop := text ++ [0] <+: buffer

/-- `strcat` -/
def append (buffer text : List UInt8) : Option (List UInt8) := do
  let held ← string buffer
  store buffer held.length (text ++ [0])

variable {buffer buffer' data text : List UInt8} {index : ℕ}

/-- A buffer keeps its length. -/
theorem length_store (h : store buffer index data = some buffer') :
    buffer'.length = buffer.length := by
  unfold store at h
  split at h
  · rename_i hfits
    obtain rfl := Option.some.inj h
    simp only [List.length_append, List.length_take, List.length_drop]
    omega
  · cases h

/-- A text without a terminator that the buffer holds is its string. -/
theorem Holds.string_eq (h : Holds buffer text) (hnul : 0 ∉ text) : string buffer = some text := by
  obtain ⟨rest, rfl⟩ := h
  have hmem : (0 : UInt8) ∈ text ++ [0] ++ rest :=
    List.mem_append_left _ (List.mem_append_right _ (List.mem_singleton_self 0))
  have hne : ∀ b ∈ text, decide (b ≠ 0) = true := fun b hb ↦
    decide_eq_true fun hzero ↦ hnul (hzero ▸ hb)
  rw [string, if_pos hmem, List.append_assoc, List.takeWhile_append_of_pos hne]
  simp

/-- Bytes stored behind the front that stays, with a terminator after them. -/
theorem exists_store (hindex : index + data.length + 1 ≤ buffer.length) :
    ∃ stored, store buffer index (data ++ [0]) = some stored ∧
      stored.length = buffer.length ∧ Holds stored (buffer.take index ++ data) := by
  have hfits : index + (data ++ [0]).length ≤ buffer.length := by
    rw [List.length_append, List.length_singleton]
    exact hindex
  have hstore : store buffer index (data ++ [0]) = some _ := if_pos hfits
  refine ⟨_, hstore, length_store hstore, buffer.drop (index + (data ++ [0]).length), ?_⟩
  simp only [List.append_assoc]

/-- The front of a text that is held. -/
theorem Holds.take_eq (h : Holds buffer text) : buffer.take text.length = text := by
  obtain ⟨rest, rfl⟩ := h
  rw [List.append_assoc, List.take_left]

/-- `strcat` within the buffer. -/
theorem exists_append (h : Holds buffer text) (hnul : 0 ∉ text)
    (hroom : text.length + data.length + 1 ≤ buffer.length) :
    ∃ joined, append buffer data = some joined ∧ joined.length = buffer.length ∧
      Holds joined (text ++ data) := by
  obtain ⟨joined, hjoined, hlength, hholds⟩ := exists_store hroom
  rw [h.take_eq] at hholds
  refine ⟨joined, ?_, hlength, hholds⟩
  rw [append, h.string_eq hnul]
  exact hjoined

end Buffer
