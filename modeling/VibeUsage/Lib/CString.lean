import Mathlib

/-!
# NUL-terminated strings and unsigned words

A C string is the run of bytes before its terminator, so a `CString` carries the proof that the
terminator is not among them: two of them are equal exactly when `strcmp` answers zero. A `char[n]`
field is represented by the string it holds; the bytes after its terminator are not part of the
value.

The second half states once what the overflow guards of C code on unsigned words mean, over `ℕ`.
-/

/-- The bytes of ASCII text. -/
def ascii (cs : List Char) : List UInt8 := cs.map Char.toUInt8

/-- A NUL-terminated byte string, without its terminator. -/
structure CString where
  /-- The bytes before the terminator. -/
  bytes : List UInt8
  /-- None of them is the terminator. -/
  noNul : 0 ∉ bytes
  deriving DecidableEq

namespace CString

@[ext]
theorem ext {s t : CString} (h : s.bytes = t.bytes) : s = t := by
  cases s
  cases t
  exact (CString.mk.injEq ..).mpr h

theorem ext_iff' {s t : CString} : s = t ↔ s.bytes = t.bytes :=
  ⟨fun h ↦ h ▸ rfl, ext⟩

/-- The string a pointer to these bytes denotes: everything before the first NUL. -/
def ofBytes (l : List UInt8) : CString :=
  ⟨l.takeWhile (· ≠ 0), fun h ↦ by
    simpa using List.all_eq_true.1 (List.all_takeWhile ) 0 h⟩

instance : Inhabited CString := ⟨⟨[], by simp⟩⟩

/-- The empty string, which a zeroed array holds. -/
def empty : CString := ⟨[], by simp⟩

@[simp] theorem empty_bytes : empty.bytes = [] := rfl

/-- A string ends at its first NUL. -/
theorem ofBytes_bytes (l : List UInt8) : (ofBytes l).bytes = l.takeWhile (· ≠ 0) := rfl

/-- Bytes without a NUL are the whole string. -/
theorem ofBytes_bytes_of_noNul {l : List UInt8} (h : 0 ∉ l) : (ofBytes l).bytes = l := by
  have hne : ∀ b ∈ l, decide (b ≠ 0) = true := by
    intro b hb
    exact decide_eq_true fun hb0 ↦ h (hb0 ▸ hb)
  rw [ofBytes_bytes, ← List.append_nil l, List.takeWhile_append_of_pos hne]
  simp

@[simp] theorem ofBytes_bytes_self (s : CString) : ofBytes s.bytes = s :=
  ext (ofBytes_bytes_of_noNul s.noNul)

/-- The byte at an index, the terminator included. -/
def byteAt (s : CString) (i : ℕ) : UInt8 := s.bytes.getD i 0

/-- `strlen`, read no further than `limit`. -/
def boundedStrlen (s : CString) (limit : ℕ) : ℕ := min s.bytes.length limit

/-- What `strncpy` of `n` bytes leaves in a larger, terminated array. -/
def strncpy (s : CString) (n : ℕ) : CString :=
  ⟨s.bytes.take n, fun h ↦ s.noNul (List.mem_of_mem_take h)⟩

/-- A string that fits is copied whole. -/
theorem strncpy_of_length_le {s : CString} {n : ℕ} (h : s.bytes.length ≤ n) : s.strncpy n = s :=
  ext (List.take_of_length_le h)

/-- `strncmp(s, start, strlen(start)) == 0`, of a `start` without zero bytes. -/
def startsWith (s : CString) (start : List UInt8) : Bool := start.isPrefixOf s.bytes

/-- A string starts with its front. -/
theorem startsWith_iff {s : CString} {start : List UInt8} :
    s.startsWith start = true ↔ start <+: s.bytes := List.isPrefixOf_iff_prefix

/-- The order of `strcmp`: lexicographic on unsigned bytes. -/
def strcmpLt (s t : CString) : Prop := s.bytes < t.bytes

/-- `strcmp` is zero for equal strings only. -/
theorem strcmpLt_or_gt {s t : CString} (h : s ≠ t) : s.strcmpLt t ∨ t.strcmpLt s := by
  have hne : s.bytes ≠ t.bytes := fun hb ↦ h (ext hb)
  unfold strcmpLt
  by_contra hnot
  obtain ⟨hst, hts⟩ := not_or.1 hnot
  exact hne (List.le_antisymm (List.not_lt.1 hts) (List.not_lt.1 hst))

instance (s t : CString) : Decidable (s.strcmpLt t) := inferInstanceAs (Decidable (_ < _))

end CString

/-! ### Overflow guards -/

/-- `UINT64_MAX`. -/
def uint64Max : UInt64 := 0xFFFFFFFFFFFFFFFF

/-- The guard `UINT64_MAX - a < b` holds exactly when the sum does not fit. -/
theorem uint64Max_sub_lt_iff (a b : UInt64) :
    uint64Max - a < b ↔ 2 ^ 64 ≤ a.toNat + b.toNat := by
  have ha := a.toNat_lt
  have hb := b.toNat_lt
  have hmax : uint64Max.toNat = 2 ^ 64 - 1 := by decide
  rw [UInt64.lt_iff_toNat_lt, UInt64.toNat_sub, hmax]
  omega

/-- A sum that passed the guard is exact. -/
theorem UInt64.toNat_add_of_lt {a b : UInt64} (h : a.toNat + b.toNat < 2 ^ 64) :
    (a + b).toNat = a.toNat + b.toNat := by
  rw [UInt64.toNat_add, Nat.mod_eq_of_lt h]
