import VibeUsage.Todo.Text

/-!
# Walking over a text on the display

`vibe_utf8_next` of `vibe_i18n.c` reads one character of a NUL-terminated text and moves the cursor
behind it; where the bytes are no UTF-8 it answers `?` and moves by one byte. It is compared with
`text_valid`, whose decoder is written separately: on the texts that `text_valid` accepts, the walk
yields the characters themselves.

* `vibeUtf8Next_char` is one character, `vibeUtf8Walk_utf8` the walk.
* `vibeUtf8Next_advance` holds of any bytes: the cursor moves, and not past the terminator.
* `utf8_handling_agrees` compares the decoders, for every byte string.
-/

namespace VibeUsage

/-- The continuation bytes of a character, `left` of them from index `i` on. -/
def utf8Continue (p : List UInt8) : (left i cp : ℕ) → Option ℕ
  | 0, _, cp => some cp
  | left + 1, i, cp =>
    let c := p.getD i 0
    if c = 0 ∨ c &&& 0xC0 ≠ 0x80 then none
    else utf8Continue p left (i + 1) (cp <<< 6 ||| (c.toNat &&& 0x3F))

/-- The length of a character by its first byte, 0 when there is none. -/
def utf8Length (c : UInt8) : ℕ :=
  if c ≥ 0xC2 ∧ c ≤ 0xDF then 2
  else if c ≥ 0xE0 ∧ c ≤ 0xEF then 3
  else if c ≥ 0xF0 ∧ c ≤ 0xF4 then 4
  else 0

/-- `vibe_utf8_next` on the bytes from the cursor on: the code point, and the bytes the cursor
moves. The terminator is the byte after the last. -/
def vibeUtf8Next (p : List UInt8) : ℕ × ℕ :=
  let c := p.getD 0 0
  if c = 0 then (0, 0)
  else if c < 128 then (c.toNat, 1)
  else
    let n := utf8Length c
    match (if n = 0 then none
      else utf8Continue p (n - 1) 1 (c.toNat &&& (1 <<< (7 - n) - 1))) with
    | none => ('?'.toNat, 1)
    | some cp =>
      if (n = 2 ∧ cp < 0x80) ∨ (n = 3 ∧ cp < 0x800) ∨ (n = 4 ∧ cp < 0x10000) ∨ cp > 0x10FFFF ∨
        (0xD800 ≤ cp ∧ cp ≤ 0xDFFF) then ('?'.toNat, 1)
      else (cp, n)

/-! ### One character -/

/-- The loop takes its bytes as that of `text_valid` does. -/
theorem utf8Continue_eq (p : List UInt8) (left i cp : ℕ) :
    utf8Continue p left i cp = (textExtra left cp (p.drop i)).map Prod.fst := by
  induction left generalizing i cp with
  | zero => rfl
  | succ left ih =>
    rw [utf8Continue]
    rcases Nat.lt_or_ge i p.length with hlt | hge
    · have hget : p.getD i 0 = p[i] := by simp [hlt]
      rw [hget, List.drop_eq_getElem_cons hlt, textExtra, ih]
      by_cases htail : p[i] &&& 0xC0 = 0x80
      · have hne : p[i] ≠ 0 := by
          intro h0
          rw [h0] at htail
          exact absurd htail (by decide)
        rw [if_neg (by simp [hne, htail]), if_neg (not_not.2 htail)]
      · rw [if_pos (Or.inr htail), if_pos htail]
        rfl
    · have hget : p.getD i 0 = 0 := by simp [hge]
      rw [hget, if_pos (Or.inl rfl), List.drop_eq_nil_of_le hge]
      rfl

/-- The first byte is read as `text_valid` reads it. -/
theorem textLead_eq_utf8Length (c : UInt8) : textLead c =
    if utf8Length c = 0 then none
    else some (c.toNat &&& (1 <<< (7 - utf8Length c) - 1), utf8Length c - 1) := by
  unfold textLead utf8Length
  split_ifs <;> first | rfl | omega

/-- What the source refuses of a code point. -/
theorem badCodePoint_iff {n cp : ℕ} (h : 2 ≤ n) : badCodePoint (n - 1) cp ↔
    (n = 2 ∧ cp < 0x80) ∨ (n = 3 ∧ cp < 0x800) ∨ (n = 4 ∧ cp < 0x10000) ∨ cp > 0x10FFFF ∨
      (0xD800 ≤ cp ∧ cp ≤ 0xDFFF) := by
  unfold badCodePoint
  omega

/-- A plain byte. -/
theorem vibeUtf8Next_ascii {c : UInt8} (h : c ≠ 0) (h' : c < 0x80) (rest : List UInt8) :
    vibeUtf8Next (c :: rest) = (c.toNat, 1) := by
  unfold vibeUtf8Next
  rw [show (c :: rest).getD 0 0 = c from rfl]
  dsimp only
  rw [if_neg h, if_pos h']

/-- A longer character. -/
theorem vibeUtf8Next_long {c : UInt8} (h : ¬ c < 0x80) {cp extra n : ℕ} {rest rest' : List UInt8}
    (hlead : textLead c = some (cp, extra)) (hextra : textExtra extra cp rest = some (n, rest'))
    (hgood : ¬ badCodePoint extra n) : vibeUtf8Next (c :: rest) = (n, extra + 1) := by
  rw [textLead_eq_utf8Length] at hlead
  split at hlead
  · cases hlead
  rename_i hlen
  obtain ⟨rfl, rfl⟩ := Prod.mk.inj (Option.some.inj hlead)
  have htwo : 2 ≤ utf8Length c := by
    unfold utf8Length at hlen ⊢
    split_ifs at hlen ⊢ <;> omega
  have hne : c ≠ 0 := by
    rintro rfl
    exact h (by decide)
  rw [badCodePoint_iff htwo] at hgood
  unfold vibeUtf8Next
  rw [show (c :: rest).getD 0 0 = c from rfl]
  dsimp only
  rw [if_neg hne, if_neg h, if_neg hlen, utf8Continue_eq, List.drop_one, List.tail_cons, hextra]
  dsimp only [Option.map_some]
  rw [if_neg hgood, Nat.sub_add_cancel (by omega)]

/-- **A character is read**, and the cursor moves behind it. -/
theorem vibeUtf8Next_char {c : Char} (h : c.toNat ≠ 0) (rest : List UInt8) :
    vibeUtf8Next (String.utf8EncodeChar c ++ rest) =
      (c.toNat, (String.utf8EncodeChar c).length) := by
  rw [Utf8.utf8EncodeChar_eq]
  by_cases hascii : c.toNat < 0x80
  · have hencode : Utf8.encode c.toNat = [UInt8.ofNat c.toNat] := if_pos hascii
    have hval : (UInt8.ofNat c.toNat).toNat = c.toNat := Utf8.toNat_ofNat_of_lt (by omega)
    have hne : UInt8.ofNat c.toNat ≠ 0 := by
      intro h0
      rw [h0] at hval
      exact h hval.symm
    have hlt : UInt8.ofNat c.toNat < 0x80 := by
      rw [UInt8.lt_iff_toNat_lt, hval]
      exact hascii
    rw [hencode, List.singleton_append, vibeUtf8Next_ascii hne hlt, hval]
    rfl
  · obtain ⟨b, tail, cp, extra, hencode, hb, hlead, hlength, hextra, hgood⟩ :=
      textExtra_encode (Utf8.isScalar_toNat c) (by omega) rest
    have hb' : ¬ b < 0x80 := by
      rw [UInt8.lt_iff_toNat_lt]
      exact not_lt.2 hb
    rw [hencode, List.cons_append, vibeUtf8Next_long hb' hlead hextra hgood, List.length_cons,
      hlength]

/-- The bytes that a longer character takes are there. -/
theorem textExtra_length {extra cp cp' : ℕ} {rest rest' : List UInt8}
    (h : textExtra extra cp rest = some (cp', rest')) : rest'.length + extra = rest.length := by
  induction extra generalizing cp rest with
  | zero =>
    obtain ⟨-, rfl⟩ := textExtra_zero.1 h
    rfl
  | succ extra ih =>
    obtain ⟨c, tail, rfl, -, hextra⟩ := textExtra_succ.1 h
    rw [List.length_cons, ← ih hextra]
    omega

/-- **The cursor moves by one to four bytes**, and not past the terminator. -/
theorem vibeUtf8Next_advance {c : UInt8} (h : c ≠ 0) (rest : List UInt8) :
    1 ≤ (vibeUtf8Next (c :: rest)).2 ∧ (vibeUtf8Next (c :: rest)).2 ≤ 4 ∧
      (vibeUtf8Next (c :: rest)).2 ≤ (c :: rest).length := by
  have hone : 1 ≤ 1 ∧ 1 ≤ 4 ∧ 1 ≤ (c :: rest).length := ⟨le_rfl, by decide, by simp⟩
  unfold vibeUtf8Next
  rw [show (c :: rest).getD 0 0 = c from rfl]
  dsimp only
  rw [if_neg h]
  split
  · exact hone
  split
  · exact hone
  rename_i cp hcp
  split
  · exact hone
  split at hcp
  · cases hcp
  rename_i hlen
  rw [utf8Continue_eq, List.drop_one, List.tail_cons] at hcp
  obtain ⟨⟨n, rest'⟩, hextra, -⟩ := Option.map_eq_some_iff.1 hcp
  have hlength := textExtra_length hextra
  have hfour : utf8Length c ≤ 4 := by
    unfold utf8Length
    split_ifs <;> decide
  dsimp only
  rw [List.length_cons]
  omega

/-! ### The walk -/

/-- Where the cursor is after some characters. -/
def cursorAfter (text : List UInt8) : ℕ → ℕ
  | 0 => 0
  | n + 1 => cursorAfter text n + (vibeUtf8Next (text.drop (cursorAfter text n))).2

/-- The code points up to the terminator. -/
def vibeUtf8Walk (p : List UInt8) : List ℕ :=
  match p with
  | [] => []
  | c :: rest =>
    if _h : c = 0 then []
    else (vibeUtf8Next (c :: rest)).1 ::
      vibeUtf8Walk ((c :: rest).drop (vibeUtf8Next (c :: rest)).2)
termination_by p.length
decreasing_by
  have hadvance := vibeUtf8Next_advance _h rest
  rw [List.length_drop, List.length_cons]
  omega

/-- One step of the walk. -/
theorem cursorAfter_step (s : CString) (n : ℕ) (h : cursorAfter s.bytes n ≤ s.bytes.length) :
    (cursorAfter s.bytes n < s.bytes.length →
      cursorAfter s.bytes n + 1 ≤ cursorAfter s.bytes (n + 1) ∧
        cursorAfter s.bytes (n + 1) ≤ cursorAfter s.bytes n + 4) ∧
    cursorAfter s.bytes (n + 1) ≤ s.bytes.length := by
  rw [cursorAfter]
  generalize cursorAfter s.bytes n = i at h
  rcases Nat.lt_or_eq_of_le h with hlt | rfl
  · have hne : s.bytes[i] ≠ 0 := fun h0 ↦ s.noNul (h0 ▸ List.getElem_mem hlt)
    have hadvance := vibeUtf8Next_advance hne (s.bytes.drop (i + 1))
    rw [List.length_cons, List.length_drop] at hadvance
    rw [List.drop_eq_getElem_cons hlt]
    exact ⟨fun _ ↦ by omega, by omega⟩
  · rw [List.drop_eq_nil_of_le le_rfl]
    exact ⟨fun hlt ↦ absurd hlt (lt_irrefl _), le_rfl⟩

/-- A character ends within the string. -/
theorem cursorAfter_le (s : CString) (n : ℕ) : cursorAfter s.bytes n ≤ s.bytes.length := by
  induction n with
  | zero => exact Nat.zero_le _
  | succ n ih => exact (cursorAfter_step s n ih).2

/-- A character has a byte, and no NUL but for U+0000. -/
theorem exists_utf8EncodeChar {c : Char} (h : c.toNat ≠ 0) :
    ∃ b tail, String.utf8EncodeChar c = b :: tail ∧ b ≠ 0 := by
  have hfirst : ∀ {n : ℕ}, n ≠ 0 → n < 256 → UInt8.ofNat n ≠ 0 := by
    intro n hn hlt h0
    have hval := Utf8.toNat_ofNat_of_lt hlt
    rw [h0] at hval
    exact hn hval.symm
  have hle := (Utf8.isScalar_toNat c).1
  rw [Utf8.utf8EncodeChar_eq]
  unfold Utf8.encode
  split_ifs
  · exact ⟨_, _, rfl, hfirst h (by omega)⟩
  · exact ⟨_, _, rfl, hfirst (by omega) (by omega)⟩
  · exact ⟨_, _, rfl, hfirst (by omega) (by omega)⟩
  · exact ⟨_, _, rfl, hfirst (by omega) (by omega)⟩

/-- **On the UTF-8 of a text** the walk yields the text. -/
theorem vibeUtf8Walk_utf8 {cs : List Char} (h : ∀ c ∈ cs, c.toNat ≠ 0) :
    vibeUtf8Walk (utf8 cs) = cs.map Char.toNat := by
  induction cs with
  | nil =>
    rw [utf8_nil, vibeUtf8Walk]
    rfl
  | cons c cs ih =>
    have hc := h c List.mem_cons_self
    have hnext := vibeUtf8Next_char hc (utf8 cs)
    obtain ⟨b, tail, hencode, hb⟩ := exists_utf8EncodeChar hc
    rw [utf8_cons, hencode, List.cons_append, vibeUtf8Walk, dif_neg hb]
    rw [hencode, List.cons_append] at hnext
    rw [hnext, ← List.cons_append, List.drop_left, ih fun d hd ↦ h d (List.mem_cons_of_mem c hd)]
    rfl

/-- **The two decoders agree.** `text_valid` accepts the plain UTF-8 texts that fit; the walk moves
by one to four bytes at a time and stops at the terminator; and on a text that `text_valid` accepts
it yields the characters. -/
theorem utf8_handling_agrees :
    (∀ (s : CString) (max : ℕ), textValid s max = true ↔
      s.bytes ≠ [] ∧ s.bytes.length < max ∧
        ∃ cs, s.bytes = utf8 cs ∧ (∀ c ∈ cs, TextChar c) ∧ ∃ c ∈ cs, c ≠ ' ') ∧
    (∀ (s : CString) (n : ℕ), cursorAfter s.bytes n ≤ s.bytes.length ∧
      (cursorAfter s.bytes n < s.bytes.length →
        cursorAfter s.bytes n + 1 ≤ cursorAfter s.bytes (n + 1) ∧
          cursorAfter s.bytes (n + 1) ≤ cursorAfter s.bytes n + 4)) ∧
    (∀ (s : CString) (max : ℕ) (cs : List Char), textValid s max = true → s.bytes = utf8 cs →
      vibeUtf8Walk s.bytes = cs.map Char.toNat) := by
  refine ⟨fun s max ↦ ?_, fun s n ↦ ⟨cursorAfter_le s n,
    (cursorAfter_step s n (cursorAfter_le s n)).1⟩,
    fun s max cs hvalid hcs ↦ ?_⟩
  · rw [textValid_iff]
    constructor
    · rintro ⟨hlength, cs, hcs, hplain, c, hc, hspace⟩
      refine ⟨fun hnil ↦ ?_, hlength, cs, hcs, hplain, c, hc, hspace⟩
      have hempty := hcs.symm.trans hnil
      rw [utf8, List.flatMap_eq_nil_iff] at hempty
      exact String.utf8EncodeChar_ne_nil (hempty c hc)
    · exact fun h ↦ h.2
  · rw [hcs]
    refine vibeUtf8Walk_utf8 fun c hc hzero ↦ s.noNul ?_
    rw [hcs, utf8, List.mem_flatMap]
    refine ⟨c, hc, ?_⟩
    rw [Utf8.utf8EncodeChar_eq, hzero]
    exact List.mem_singleton_self _

end VibeUsage
