import VibeUsage.Lib.CString
import VibeUsage.Lib.Utf8

/-!
# The text of an entry

`text_valid` walks over the bytes of a title, a transcript or a setting character by character.
`textScan_eq_true` says what it is for: the bytes are the UTF-8 of some characters, none of them a
control character, and one of them is not a space.

`textScan_char` is the walk over one character that is passed, `textScan_split` that nothing else
is. `textValid_iff` is the function as it is called, with the capacity of the array.
-/

namespace VibeUsage

open Utf8 (IsTail IsScalar extend)

/-- The code point so far and the continuation bytes to come, from the first byte of a character
outside ASCII. -/
def textLead (c : UInt8) : Option (ℕ × ℕ) :=
  if 0xC2 ≤ c ∧ c ≤ 0xDF then some (c.toNat &&& 31, 1)
  else if 0xE0 ≤ c ∧ c ≤ 0xEF then some (c.toNat &&& 15, 2)
  else if 0xF0 ≤ c ∧ c ≤ 0xF4 then some (c.toNat &&& 7, 3)
  else none

/-- The code point and the bytes after `extra` continuation bytes. -/
def textExtra : ℕ → ℕ → List UInt8 → Option (ℕ × List UInt8)
  | 0, cp, rest => some (cp, rest)
  | _ + 1, _, [] => none
  | extra + 1, cp, c :: rest =>
    if c &&& 0xC0 ≠ 0x80 then none else textExtra extra (cp <<< 6 ||| (c.toNat &&& 63)) rest

/-- A code point that is too small for its length, too large or a surrogate. -/
def badCodePoint (extra cp : ℕ) : Prop :=
  (extra = 1 ∧ cp < 0x80) ∨ (extra = 2 ∧ cp < 0x800) ∨ (extra = 3 ∧ cp < 0x10000) ∨
    cp > 0x10FFFF ∨ (0xD800 ≤ cp ∧ cp ≤ 0xDFFF)

instance (extra cp : ℕ) : Decidable (badCodePoint extra cp) :=
  inferInstanceAs (Decidable (_ ∨ _ ∨ _ ∨ _ ∨ _))

/-- Continuation bytes are taken from the front. -/
theorem length_textExtra {extra cp cp' : ℕ} {rest rest' : List UInt8}
    (h : textExtra extra cp rest = some (cp', rest')) : rest'.length ≤ rest.length := by
  induction extra generalizing cp rest with
  | zero =>
    rw [textExtra, Option.some.injEq, Prod.mk.injEq] at h
    rw [h.2]
  | succ extra ih =>
    cases rest with
    | nil =>
      rw [textExtra] at h
      cases h
    | cons c rest =>
      rw [textExtra] at h
      split at h
      · cases h
      · exact Nat.le_succ_of_le (ih h)

/-- The loop over the bytes, with whether a character other than a space has been seen. -/
def textScan : List UInt8 → Bool → Bool
  | [], visible => visible
  | c :: rest, visible =>
    if c < 0x20 ∨ c = 0x7F then false
    else
      let visible := visible || decide (c ≠ 0x20)
      if c < 0x80 then textScan rest visible
      else
        match textLead c with
        | none => false
        | some (cp, extra) =>
          if extra > rest.length then false
          else
            match _h : textExtra extra cp rest with
            | none => false
            | some (cp, rest') =>
              if badCodePoint extra cp then false else textScan rest' visible
termination_by bytes => bytes.length
decreasing_by
  · simp
  · simpa using Nat.lt_succ_of_le (length_textExtra _h)

/-- `text_valid` on an array of `max` bytes. -/
def textValid (s : CString) (max : ℕ) : Bool :=
  if s.bytes = [] then false
  else if s.boundedStrlen max = max then false
  else textScan s.bytes false

/-! ### One character -/

/-- `textExtra` takes its bytes as UTF-8 continues a character. -/
theorem textExtra_succ {extra cp cp' : ℕ} {rest rest' : List UInt8} :
    textExtra (extra + 1) cp rest = some (cp', rest') ↔
      ∃ c tail, rest = c :: tail ∧ IsTail c ∧ textExtra extra (extend cp c) tail =
        some (cp', rest') := by
  cases rest with
  | nil => simp [textExtra]
  | cons c tail =>
    have htail : c &&& 0xC0 = 0x80 ↔ IsTail c := by
      unfold IsTail
      revert c
      decide +kernel
    rw [textExtra]
    constructor
    · intro h
      split at h
      · cases h
      · rename_i hc
        rw [not_not, htail] at hc
        rw [Utf8.shiftLeft_or_tail hc] at h
        exact ⟨c, tail, rfl, hc, h⟩
    · rintro ⟨c', tail', heq, hc, h⟩
      obtain ⟨rfl, rfl⟩ := List.cons.inj heq
      rw [if_neg (not_not.2 (htail.2 hc)), Utf8.shiftLeft_or_tail hc]
      exact h

/-- A character without bytes to come is complete. -/
theorem textExtra_zero {cp cp' : ℕ} {rest rest' : List UInt8} :
    textExtra 0 cp rest = some (cp', rest') ↔ cp = cp' ∧ rest = rest' := by
  rw [textExtra, Option.some.injEq, Prod.mk.injEq]

/-- What the first byte of a longer character can be. -/
theorem textLead_eq_some {c : UInt8} {cp extra : ℕ} : textLead c = some (cp, extra) ↔
    (0xC2 ≤ c.toNat ∧ c.toNat ≤ 0xDF ∧ cp = c.toNat - 0xC0 ∧ extra = 1) ∨
    (0xE0 ≤ c.toNat ∧ c.toNat ≤ 0xEF ∧ cp = c.toNat - 0xE0 ∧ extra = 2) ∨
    (0xF0 ≤ c.toNat ∧ c.toNat ≤ 0xF4 ∧ cp = c.toNat - 0xF0 ∧ extra = 3) := by
  have h₁ := Utf8.and_mask c.toNat 5
  have h₂ := Utf8.and_mask c.toNat 4
  have h₃ := Utf8.and_mask c.toNat 3
  unfold textLead
  simp only [UInt8.le_iff_toNat_le, show c.toNat &&& 31 = c.toNat % 32 from h₁,
    show c.toNat &&& 15 = c.toNat % 16 from h₂, show c.toNat &&& 7 = c.toNat % 8 from h₃,
    UInt8.reduceToNat]
  split
  · rw [Option.some.injEq, Prod.mk.injEq]
    omega
  · split
    · rw [Option.some.injEq, Prod.mk.injEq]
      omega
    · split
      · rw [Option.some.injEq, Prod.mk.injEq]
        omega
      · constructor
        · intro h
          cases h
        · omega

/-- **A longer character, as the walk reads it**, is the encoding of a scalar value. -/
theorem encode_of_textExtra {c : UInt8} {cp extra n : ℕ} {rest rest' : List UInt8}
    (hlead : textLead c = some (cp, extra)) (hextra : textExtra extra cp rest = some (n, rest'))
    (hgood : ¬ badCodePoint extra n) :
    IsScalar n ∧ 0x80 ≤ n ∧ c :: rest = Utf8.encode n ++ rest' := by
  unfold badCodePoint at hgood
  rcases textLead_eq_some.1 hlead with ⟨h, h', hcp, hn⟩ | ⟨h, h', hcp, hn⟩ | ⟨h, h', hcp, hn⟩
  all_goals rw [hcp, hn] at hextra
  · obtain ⟨a, _, rfl, ha, hextra⟩ := textExtra_succ.1 hextra
    obtain ⟨rfl, rfl⟩ := textExtra_zero.1 hextra
    refine ⟨⟨by omega, by omega⟩, by omega, ?_⟩
    rw [Utf8.encode_two ⟨h, h'⟩ ha]
    rfl
  · obtain ⟨a, _, rfl, ha, hextra⟩ := textExtra_succ.1 hextra
    obtain ⟨b, _, rfl, hb, hextra⟩ := textExtra_succ.1 hextra
    obtain ⟨rfl, rfl⟩ := textExtra_zero.1 hextra
    refine ⟨⟨by omega, by omega⟩, by omega, ?_⟩
    rw [Utf8.encode_three ⟨h, h'⟩ ha hb (by omega)]
    rfl
  · obtain ⟨a, _, rfl, ha, hextra⟩ := textExtra_succ.1 hextra
    obtain ⟨b, _, rfl, hb, hextra⟩ := textExtra_succ.1 hextra
    obtain ⟨d, _, rfl, hd, hextra⟩ := textExtra_succ.1 hextra
    obtain ⟨rfl, rfl⟩ := textExtra_zero.1 hextra
    refine ⟨⟨by omega, by omega⟩, by omega, ?_⟩
    rw [Utf8.encode_four h ha hb hd (by omega)]
    rfl

/-- **The encoding of a scalar value** beyond ASCII is read as that value. -/
theorem textExtra_encode {n : ℕ} (hn : IsScalar n) (hlong : 0x80 ≤ n) (rest : List UInt8) :
    ∃ c tail cp extra, Utf8.encode n = c :: tail ∧ 0x80 ≤ c.toNat ∧
      textLead c = some (cp, extra) ∧ tail.length = extra ∧
      textExtra extra cp (tail ++ rest) = some (n, rest) ∧ ¬ badCodePoint extra n := by
  obtain ⟨hmax, hsurrogate⟩ := hn
  unfold badCodePoint Utf8.encode
  rw [if_neg (by omega)]
  split
  · refine ⟨_, _, n / 64, 1, rfl, ?_, ?_, rfl, ?_, by omega⟩
    · rw [Utf8.toNat_ofNat_of_lt (by omega)]
      omega
    · rw [textLead_eq_some, Utf8.toNat_ofNat_of_lt (by omega)]
      omega
    · exact textExtra_succ.2 ⟨_, _, rfl, Utf8.isTail_tail n,
        textExtra_zero.2 ⟨Utf8.extend_tail n, rfl⟩⟩
  split
  · refine ⟨_, _, n / 4096, 2, rfl, ?_, ?_, rfl, ?_, by omega⟩
    · rw [Utf8.toNat_ofNat_of_lt (by omega)]
      omega
    · rw [textLead_eq_some, Utf8.toNat_ofNat_of_lt (by omega)]
      omega
    · have hdiv : n / 4096 = n / 64 / 64 := by omega
      rw [hdiv]
      refine textExtra_succ.2 ⟨_, _, rfl, Utf8.isTail_tail _, ?_⟩
      rw [Utf8.extend_tail]
      exact textExtra_succ.2 ⟨_, _, rfl, Utf8.isTail_tail n,
        textExtra_zero.2 ⟨Utf8.extend_tail n, rfl⟩⟩
  · refine ⟨_, _, n / 262144, 3, rfl, ?_, ?_, rfl, ?_, by omega⟩
    · rw [Utf8.toNat_ofNat_of_lt (by omega)]
      omega
    · rw [textLead_eq_some, Utf8.toNat_ofNat_of_lt (by omega)]
      omega
    -- Each byte behind the first adds six bits.
    · have hdiv : n / 262144 = n / 4096 / 64 := by omega
      have hdiv' : n / 4096 = n / 64 / 64 := by omega
      rw [hdiv]
      refine textExtra_succ.2 ⟨_, _, rfl, Utf8.isTail_tail _, ?_⟩
      rw [Utf8.extend_tail, hdiv']
      refine textExtra_succ.2 ⟨_, _, rfl, Utf8.isTail_tail _, ?_⟩
      rw [Utf8.extend_tail]
      exact textExtra_succ.2 ⟨_, _, rfl, Utf8.isTail_tail n,
        textExtra_zero.2 ⟨Utf8.extend_tail n, rfl⟩⟩

/-! ### The whole text -/

/-- The octets of a text. -/
def utf8 (cs : List Char) : List UInt8 := cs.flatMap String.utf8EncodeChar

@[simp] theorem utf8_nil : utf8 [] = [] := rfl

/-- Characters are written one after the other. -/
theorem utf8_cons (c : Char) (cs : List Char) :
    utf8 (c :: cs) = String.utf8EncodeChar c ++ utf8 cs := rfl

/-- Neither a control character of ASCII nor DEL. -/
def TextChar (c : Char) : Prop := 0x20 ≤ c.toNat ∧ c.toNat ≠ 0x7F

instance (c : Char) : Decidable (TextChar c) := inferInstanceAs (Decidable (_ ∧ _))

/-- **One character on**, when it is plain. -/
theorem textScan_char {c : Char} (h : TextChar c) (rest : List UInt8) (visible : Bool) :
    textScan (String.utf8EncodeChar c ++ rest) visible =
      textScan rest (visible || decide (c ≠ ' ')) := by
  obtain ⟨hlow, hdel⟩ := h
  have hspace : c = ' ' ↔ c.toNat = 0x20 := by
    constructor
    · rintro rfl
      rfl
    · exact fun hc ↦ Char.toNat_inj.1 hc
  rw [Utf8.utf8EncodeChar_eq]
  -- One byte is looked at as it is; of more, the code point is put together.
  by_cases hascii : c.toNat < 0x80
  · have hc : (UInt8.ofNat c.toNat).toNat = c.toNat := Utf8.toNat_ofNat_of_lt (by omega)
    have hencode : Utf8.encode c.toNat = [UInt8.ofNat c.toNat] := if_pos hascii
    have hspace' : UInt8.ofNat c.toNat = 0x20 ↔ c = ' ' := by
      rw [hspace, ← UInt8.toNat_inj, hc]
      rfl
    have hplain : ¬ (UInt8.ofNat c.toNat < 0x20 ∨ UInt8.ofNat c.toNat = 0x7F) := by
      simp only [UInt8.lt_iff_toNat_lt, ← UInt8.toNat_inj, hc, UInt8.reduceToNat]
      omega
    have hascii' : UInt8.ofNat c.toNat < 0x80 := by
      simpa only [UInt8.lt_iff_toNat_lt, hc, UInt8.reduceToNat] using hascii
    rw [hencode, List.singleton_append, textScan, if_neg hplain]
    dsimp only
    rw [if_pos hascii']
    simp only [ne_eq, hspace']
  · obtain ⟨b, tail, cp, extra, hencode, hb, hlead, hlength, hextra, hgood⟩ :=
      textExtra_encode (Utf8.isScalar_toNat c) (by omega) rest
    have hb' : ¬ (b < 0x20 ∨ b = 0x7F) := by
      simp only [UInt8.lt_iff_toNat_lt, ← UInt8.toNat_inj, UInt8.reduceToNat]
      omega
    have hb'' : ¬ b < 0x80 := by
      simp only [UInt8.lt_iff_toNat_lt, UInt8.reduceToNat]
      omega
    have hvisible : decide (b ≠ 0x20) = decide (c ≠ ' ') := by
      simp only [decide_eq_decide, ne_eq, hspace, ← UInt8.toNat_inj, UInt8.reduceToNat]
      omega
    rw [hencode, List.cons_append, textScan, if_neg hb', hlead]
    dsimp only
    rw [if_neg hb'', if_neg (by rw [List.length_append]; omega), hvisible]
    split
    · rename_i hnone
      rw [hextra] at hnone
      cases hnone
    · rename_i hsome
      rw [hextra] at hsome
      obtain ⟨rfl, rfl⟩ := Prod.mk.inj (Option.some.inj hsome)
      exact if_neg hgood

/-- **Every character that is passed** is plain. -/
theorem textScan_split {b : UInt8} {rest : List UInt8} {visible : Bool}
    (h : textScan (b :: rest) visible = true) :
    ∃ c rest', b :: rest = String.utf8EncodeChar c ++ rest' ∧ TextChar c := by
  rw [textScan] at h
  split at h
  · cases h
  · rename_i hplain
    simp only [UInt8.lt_iff_toNat_lt, ← UInt8.toNat_inj, UInt8.reduceToNat] at hplain
    dsimp only at h
    split at h
    · rename_i hascii
      simp only [UInt8.lt_iff_toNat_lt, UInt8.reduceToNat] at hascii
      have hscalar : IsScalar b.toNat := ⟨by omega, by omega⟩
      refine ⟨Char.ofNat b.toNat, rest, ?_, ?_⟩
      · have hencode : Utf8.encode b.toNat = [UInt8.ofNat b.toNat] := if_pos hascii
        rw [Utf8.utf8EncodeChar_ofNat hscalar, hencode, UInt8.ofNat_toNat]
        rfl
      · unfold TextChar
        rw [Utf8.toNat_ofNat hscalar]
        omega
    · split at h
      · cases h
      · rename_i cp extra hlead
        split at h
        · cases h
        · split at h
          · cases h
          · rename_i n rest' hextra
            split at h
            · cases h
            · rename_i hgood
              obtain ⟨hscalar, hlong, hencode⟩ := encode_of_textExtra hlead hextra hgood
              refine ⟨Char.ofNat n, rest', ?_, ?_⟩
              · rw [Utf8.utf8EncodeChar_ofNat hscalar, hencode]
              · unfold TextChar
                rw [Utf8.toNat_ofNat hscalar]
                unfold badCodePoint at hgood
                omega

/-- **What the walk accepts**: the UTF-8 of plain characters, one of them not a space. -/
theorem textScan_eq_true {bytes : List UInt8} {visible : Bool} : textScan bytes visible = true ↔
    ∃ cs, bytes = utf8 cs ∧ (∀ c ∈ cs, TextChar c) ∧ (visible = true ∨ ∃ c ∈ cs, c ≠ ' ') := by
  constructor
  · intro h
    induction hn : bytes.length using Nat.strong_induction_on generalizing bytes visible with
    | _ n ih =>
    cases bytes with
    | nil =>
      rw [textScan] at h
      exact ⟨[], rfl, by simp, Or.inl h⟩
    | cons b rest =>
      obtain ⟨c, rest', heq, hc⟩ := textScan_split h
      rw [heq, textScan_char hc] at h
      -- A character takes at least one byte, so the induction on the length goes on.
      have hlt : rest'.length < n := by
        have hpos : 0 < (String.utf8EncodeChar c).length :=
          List.length_pos_iff.2 String.utf8EncodeChar_ne_nil
        rw [← hn, heq, List.length_append]
        omega
      obtain ⟨cs, rfl, hcs, hvisible⟩ := ih _ hlt h rfl
      refine ⟨c :: cs, heq, ?_, ?_⟩
      · rintro d (_ | ⟨_, hd⟩)
        · exact hc
        · exact hcs d hd
      · rcases hvisible with hvisible | ⟨d, hd, hne⟩
        · rcases Bool.or_eq_true_iff.1 hvisible with hvisible | hne
          · exact Or.inl hvisible
          · exact Or.inr ⟨c, List.mem_cons_self, of_decide_eq_true hne⟩
        · exact Or.inr ⟨d, List.mem_cons_of_mem c hd, hne⟩
  · rintro ⟨cs, rfl, hcs, hvisible⟩
    induction cs generalizing visible with
    | nil =>
      rw [utf8_nil, textScan]
      simpa using hvisible
    | cons c cs ih =>
      rw [utf8_cons, textScan_char (hcs c List.mem_cons_self)]
      refine ih (fun d hd ↦ hcs d (List.mem_cons_of_mem c hd)) ?_
      rw [Bool.or_eq_true]
      rcases hvisible with hvisible | ⟨d, hd, hne⟩
      · exact Or.inl (Or.inl hvisible)
      · rcases List.mem_cons.1 hd with rfl | hd
        · exact Or.inl (Or.inr (decide_eq_true hne))
        · exact Or.inr ⟨d, hd, hne⟩

/-- **`text_valid` in terms of the text.** -/
theorem textValid_iff {s : CString} {max : ℕ} : textValid s max = true ↔
    s.bytes.length < max ∧ ∃ cs, s.bytes = utf8 cs ∧ (∀ c ∈ cs, TextChar c) ∧
      ∃ c ∈ cs, c ≠ ' ' := by
  unfold textValid
  split
  · rename_i hnil
    constructor
    · intro h
      cases h
    · rintro ⟨-, cs, hcs, -, c, hc, -⟩
      rw [hnil] at hcs
      cases cs with
      | nil => cases hc
      | cons d cs =>
        rw [utf8_cons] at hcs
        exact absurd (List.append_eq_nil_iff.1 hcs.symm).1 String.utf8EncodeChar_ne_nil
  · split
    · rename_i hfull
      unfold CString.boundedStrlen at hfull
      constructor
      · intro h
        cases h
      · rintro ⟨h, -⟩
        omega
    · rename_i hfits
      unfold CString.boundedStrlen at hfits
      rw [textScan_eq_true]
      simp only [Bool.false_eq_true, false_or]
      exact ⟨fun h ↦ ⟨by omega, h⟩, fun h ↦ h.2⟩

end VibeUsage
