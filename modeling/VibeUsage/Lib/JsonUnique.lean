import VibeUsage.Lib.JsonReader

/-!
# A JSON text spells one value

The grammar is unambiguous: a text has at most one value (`isJsonText_unique`). Tokens are compared
by their first byte, strings character by character, a number by the run of bytes that could belong
to one, and the values of equal token sequences are equal by `Value.tokens_injective`.

`spelled_unique` is the half about the bytes: a text determines the tokens that spell it. Nothing is
assumed of white space, of escapes or of how a number is written.
-/

namespace Rfc8259

/-! ### Characters -/

/-- Text that starts with two characters starts with one. -/
theorem utf8EncodeChar_append_inj {c c' : Char} {r r' : List UInt8}
    (h : String.utf8EncodeChar c ++ r = String.utf8EncodeChar c' ++ r') : c = c' ∧ r = r' := by
  have hdecode : ∀ (c : Char) (r : List UInt8),
      ByteArray.utf8DecodeChar? (String.utf8EncodeChar c ++ r).toByteArray 0 = some c := by
    intro c r
    rw [List.toByteArray_append]
    exact ByteArray.utf8DecodeChar?_utf8EncodeChar_append
  have hc : c = c' := Option.some.inj ((hdecode c r).symm.trans (h ▸ hdecode c' r'))
  subst hc
  exact ⟨rfl, List.append_cancel_left h⟩

/-- A character that needs no escape starts with neither a quotation mark nor a backslash. -/
theorem head_of_unescaped {c : Char} (hquote : c ≠ '"') (hslash : c ≠ '\\') :
    ∃ b t, String.utf8EncodeChar c = b :: t ∧ b ≠ 0x22 ∧ b ≠ 0x5C := by
  cases henc : String.utf8EncodeChar c with
  | nil => exact absurd henc String.utf8EncodeChar_ne_nil
  | cons b t =>
    refine ⟨b, t, rfl, ?_, ?_⟩
    · rintro rfl
      have h : String.utf8EncodeChar c ++ [] = String.utf8EncodeChar '"' ++ t := by
        rw [henc, List.append_nil]
        rfl
      exact hquote (utf8EncodeChar_append_inj h).1
    · rintro rfl
      have h : String.utf8EncodeChar c ++ [] = String.utf8EncodeChar '\\' ++ t := by
        rw [henc, List.append_nil]
        rfl
      exact hslash (utf8EncodeChar_append_inj h).1

/-- One `char` of the grammar, and the octets it denotes. -/
inductive IsChar : List UInt8 → List UInt8 → Prop where
  | unescaped (c : Char) (hquote : c ≠ '"') (hslash : c ≠ '\\') :
      IsChar (String.utf8EncodeChar c) (String.utf8EncodeChar c)
  | escape {e d : UInt8} (h : simpleEscape? e = some d) : IsChar [0x5C, e] [d]
  | unicode {h₁ h₂ h₃ h₄ : UInt8} (c : Char) (h : hex4? h₁ h₂ h₃ h₄ = some c.toNat) :
      IsChar [0x5C, 0x75, h₁, h₂, h₃, h₄] (String.utf8EncodeChar c)
  | surrogates {h₁ h₂ h₃ h₄ l₁ l₂ l₃ l₄ : UInt8} {hi lo : ℕ} (c : Char)
      (hhex : hex4? h₁ h₂ h₃ h₄ = some hi) (lhex : hex4? l₁ l₂ l₃ l₄ = some lo)
      (hhi : 0xD800 ≤ hi ∧ hi ≤ 0xDBFF)
      (hc : c.toNat = 0x10000 + (hi - 0xD800) * 0x400 + (lo - 0xDC00)) :
      IsChar [0x5C, 0x75, h₁, h₂, h₃, h₄, 0x5C, 0x75, l₁, l₂, l₃, l₄] (String.utf8EncodeChar c)

/-- `Chars`, one character at a time. -/
theorem chars_cases {raw text : List UInt8} (h : Chars raw text) :
    (raw = [] ∧ text = []) ∨ ∃ p d raw' text', IsChar p d ∧ Chars raw' text' ∧
      raw = p ++ raw' ∧ text = d ++ text' := by
  cases h with
  | nil => exact Or.inl ⟨rfl, rfl⟩
  | unescaped c _ hquote hslash rest =>
    exact Or.inr ⟨_, _, _, _, .unescaped c hquote hslash, rest, rfl, rfl⟩
  | escape h rest => exact Or.inr ⟨_, _, _, _, .escape h, rest, rfl, rfl⟩
  | unicode c h rest => exact Or.inr ⟨_, _, _, _, .unicode c h, rest, rfl, rfl⟩
  | surrogates c hhex lhex hhi _ hc rest =>
    exact Or.inr ⟨_, _, _, _, .surrogates c hhex lhex hhi hc, rest, rfl, rfl⟩

/-- Characters are known by their numbers. -/
theorem eq_of_toNat_eq {c c' : Char} (h : c.toNat = c'.toNat) : c = c' :=
  Char.ext (UInt32.toNat_inj.1 h)

/-- A code unit of a pair is not a character of its own. -/
theorem toNat_not_high (c : Char) : ¬ (0xD800 ≤ c.toNat ∧ c.toNat ≤ 0xDBFF) := by
  rintro ⟨hlo, hhi⟩
  rcases c.valid with h | ⟨h, -⟩
  · have : c.toNat < 0xD800 := h
    omega
  · have : 0xDFFF < c.toNat := h
    omega

/-- Text that starts with two characters of the grammar starts with one. -/
theorem isChar_unique {p d p' d' r r' : List UInt8} (h : IsChar p d) (h' : IsChar p' d')
    (heq : p ++ r = p' ++ r') : p = p' ∧ d = d' ∧ r = r' := by
  cases h with
  | unescaped c hquote hslash =>
    cases h' with
    | unescaped c' =>
      obtain ⟨rfl, rfl⟩ := utf8EncodeChar_append_inj heq
      exact ⟨rfl, rfl, rfl⟩
    | _ =>
      -- A character that is written as itself begins with no backslash, and every escape does.
      obtain ⟨b, t, henc, -, hb⟩ := head_of_unescaped hquote hslash
      rw [henc] at heq
      exact absurd (List.cons.inj heq).1 hb
  | escape hesc =>
    cases h' with
    | unescaped c' hquote hslash =>
      obtain ⟨b, t, henc, -, hb⟩ := head_of_unescaped hquote hslash
      rw [henc] at heq
      exact absurd (List.cons.inj heq).1.symm hb
    | escape hesc' =>
      simp only [List.cons_append, List.nil_append, List.cons.injEq, true_and] at heq
      obtain ⟨rfl, rfl⟩ := heq
      exact ⟨rfl, by rw [Option.some.inj (hesc.symm.trans hesc')], rfl⟩
    | _ =>
      simp only [List.cons_append, List.nil_append, List.cons.injEq, true_and] at heq
      rw [heq.1] at hesc
      exact absurd hesc (by simp [simpleEscape?])
  | unicode c hhex =>
    cases h' with
    | unescaped c' hquote hslash =>
      obtain ⟨b, t, henc, -, hb⟩ := head_of_unescaped hquote hslash
      rw [henc] at heq
      exact absurd (List.cons.inj heq).1.symm hb
    | escape hesc =>
      simp only [List.cons_append, List.nil_append, List.cons.injEq, true_and] at heq
      rw [← heq.1] at hesc
      exact absurd hesc (by simp [simpleEscape?])
    | unicode c' hhex' =>
      simp only [List.cons_append, List.nil_append, List.cons.injEq, true_and] at heq
      obtain ⟨rfl, rfl, rfl, rfl, rfl⟩ := heq
      obtain rfl := eq_of_toNat_eq (Option.some.inj (hhex.symm.trans hhex'))
      exact ⟨rfl, rfl, rfl⟩
    | surrogates c' hhex' lhex hhi =>
      simp only [List.cons_append, List.nil_append, List.cons.injEq, true_and] at heq
      -- A high surrogate is no character of its own.
      obtain ⟨rfl, rfl, rfl, rfl, -⟩ := heq
      rw [← Option.some.inj (hhex.symm.trans hhex')] at hhi
      exact absurd hhi (toNat_not_high c)
  | surrogates c hhex lhex hhi hc =>
    cases h' with
    | unescaped c' hquote hslash =>
      obtain ⟨b, t, henc, -, hb⟩ := head_of_unescaped hquote hslash
      rw [henc] at heq
      exact absurd (List.cons.inj heq).1.symm hb
    | escape hesc =>
      simp only [List.cons_append, List.nil_append, List.cons.injEq, true_and] at heq
      rw [← heq.1] at hesc
      exact absurd hesc (by simp [simpleEscape?])
    | unicode c' hhex' =>
      simp only [List.cons_append, List.nil_append, List.cons.injEq, true_and] at heq
      obtain ⟨rfl, rfl, rfl, rfl, -⟩ := heq
      rw [← Option.some.inj (hhex'.symm.trans hhex)] at hhi
      exact absurd hhi (toNat_not_high c')
    | surrogates c' hhex' lhex' _ hc' =>
      simp only [List.cons_append, List.nil_append, List.cons.injEq, true_and] at heq
      obtain ⟨rfl, rfl, rfl, rfl, rfl, rfl, rfl, rfl, rfl⟩ := heq
      obtain rfl := Option.some.inj (hhex.symm.trans hhex')
      obtain rfl := Option.some.inj (lhex.symm.trans lhex')
      obtain rfl := eq_of_toNat_eq (hc.trans hc'.symm)
      exact ⟨rfl, rfl, rfl⟩

/-- No character of the grammar starts with the closing quotation mark. -/
theorem isChar_head {p d r r' : List UInt8} (h : IsChar p d) : p ++ r ≠ 0x22 :: r' := by
  intro heq
  cases h with
  | unescaped c hquote hslash =>
    obtain ⟨b, t, henc, hb, -⟩ := head_of_unescaped hquote hslash
    rw [henc] at heq
    exact hb (List.cons.inj heq).1
  | _ => exact absurd (List.cons.inj heq).1 (by decide)

/-- Text that starts with `raw` and a closing quotation mark starts with no other characters and
one, and these denote `text`. -/
def Closed (raw text : List UInt8) : Prop :=
  ∀ {raw' text' r r' : List UInt8}, Chars raw' text' → raw ++ 0x22 :: r = raw' ++ 0x22 :: r' →
    text = text' ∧ r = r'

/-- One more character inside a string. -/
theorem closed_append {p d raw text : List UInt8} (hp : IsChar p d) (h : Closed raw text) :
    Closed (p ++ raw) (d ++ text) := by
  intro raw' text' r r' h' heq
  rw [List.append_assoc] at heq
  obtain ⟨rfl, rfl⟩ | ⟨p', d', raw₁, text₁, hp', hrest', rfl, rfl⟩ := chars_cases h'
  · exact absurd heq (isChar_head hp)
  · rw [List.append_assoc] at heq
    obtain ⟨-, rfl, hr⟩ := isChar_unique hp hp' heq
    obtain ⟨rfl, rfl⟩ := h hrest' hr
    exact ⟨rfl, rfl⟩

/-- **A string is closed** by the first quote that is not escaped. -/
theorem closed_of_chars {raw text : List UInt8} (h : Chars raw text) : Closed raw text := by
  induction h with
  | nil =>
    intro raw' text' r r' h' heq
    obtain ⟨rfl, rfl⟩ | ⟨p', d', raw₁, text₁, hp', -, rfl, rfl⟩ := chars_cases h'
    · exact ⟨rfl, (List.cons.inj heq).2⟩
    · rw [List.append_assoc] at heq
      exact absurd heq.symm (isChar_head hp')
  | unescaped c _ hquote hslash _ ih => exact closed_append (.unescaped c hquote hslash) ih
  | escape h _ ih => exact closed_append (.escape h) ih
  | unicode c h _ ih => exact closed_append (.unicode c h) ih
  | surrogates c hhex lhex hhi _ hc _ ih => exact closed_append (.surrogates c hhex lhex hhi hc) ih

/-! ### Tokens -/

/-- A token without its text. -/
def Token.bare : Token → Token
  | .string _ => .string []
  | .number _ => .number []
  | k => k

/-- The bare token a byte starts. -/
def bareOf (b : UInt8) : Token :=
  if b = 0x7B then .leftObject
  else if b = 0x7D then .rightObject
  else if b = 0x5B then .leftArray
  else if b = 0x5D then .rightArray
  else if b = 0x3A then .colon
  else if b = 0x2C then .comma
  else if b = 0x22 then .string []
  else if b = 0x74 then .true
  else if b = 0x66 then .false
  else if b = 0x6E then .null
  else .number []

/-- A number is known by its first byte. -/
theorem bareOf_of_number {b : UInt8} (h : b = 0x2D ∨ IsDigit b) : bareOf b = .number [] := by
  have hlow : b = 0x2D ∨ (0x30 ≤ b.toNat ∧ b.toNat ≤ 0x39) := h
  have hne : ∀ k : UInt8, k.toNat = 0x22 ∨ k.toNat = 0x2C ∨ 0x3A ≤ k.toNat → b ≠ k := by
    rintro k hk rfl
    rcases hlow with rfl | hlow
    · revert hk
      decide
    · omega
  unfold bareOf
  rw [if_neg (hne _ (by decide)), if_neg (hne _ (by decide)), if_neg (hne _ (by decide)),
    if_neg (hne _ (by decide)), if_neg (hne _ (by decide)), if_neg (hne _ (by decide)),
    if_neg (hne _ (by decide)), if_neg (hne _ (by decide)), if_neg (hne _ (by decide)),
    if_neg (hne _ (by decide))]

/-- The first byte of a token tells which it is, and is no white space. -/
theorem head_of_tokenText {k : Token} {b : List UInt8} (h : TokenText k b) :
    ∃ c t, b = c :: t ∧ bareOf c = k.bare ∧ ¬ (c = 0x20 ∨ c = 0x09 ∨ c = 0x0D ∨ c = 0x0A) := by
  cases k with
  | string s =>
    obtain ⟨raw, -, rfl⟩ := h
    exact ⟨0x22, raw ++ [0x22], rfl, rfl, by decide⟩
  | number n =>
    obtain ⟨rfl, hn⟩ := h
    obtain ⟨c, ds, rfl, hc, -⟩ := exists_cons_of_isNumber hn
    refine ⟨c, ds, rfl, bareOf_of_number hc, ?_⟩
    rintro (rfl | rfl | rfl | rfl) <;> revert hc <;> decide
  | _ =>
    obtain rfl := h
    exact ⟨_, _, rfl, rfl, by decide⟩

/-- A delimited number is the run of number bytes at the head of the text. -/
theorem number_eq_takeWhile {n r : List UInt8} (h : IsNumber n) (hr : Delimited r) :
    n = (n ++ r).takeWhile fun b ↦ decide (NumberByte b) := by
  obtain ⟨c, ds, rfl, hc, hds⟩ := exists_cons_of_isNumber h
  have hall : ∀ b ∈ c :: ds, decide (NumberByte b) = true := by
    intro b hb
    rcases List.mem_cons.1 hb with rfl | hb
    · exact decide_eq_true (hc.elim (fun h ↦ Or.inr (Or.inl h)) Or.inl)
    · exact decide_eq_true (hds b hb)
  rw [List.takeWhile_append_of_pos hall]
  cases r with
  | nil => rw [List.takeWhile_nil, List.append_nil]
  | cons b r =>
    rw [List.takeWhile_cons_of_neg (by simpa using delimited_cons.1 hr), List.append_nil]

/-- Text that starts with two tokens starts with one. -/
theorem tokenText_unique {k k' : Token} {b b' r r' : List UInt8} (h : TokenText k b)
    (h' : TokenText k' b') (hd : ∀ n, k = .number n → Delimited r)
    (hd' : ∀ n, k' = .number n → Delimited r') (heq : b ++ r = b' ++ r') :
    k = k' ∧ r = r' := by
  have hbare : k.bare = k'.bare := by
    obtain ⟨c, t, rfl, hc, -⟩ := head_of_tokenText h
    obtain ⟨c', t', rfl, hc', -⟩ := head_of_tokenText h'
    rw [← hc, ← hc', (List.cons.inj heq).1]
  cases k with
  | string s =>
    cases k' with
    | string s' =>
      obtain ⟨raw, hraw, rfl⟩ := h
      obtain ⟨raw', hraw', rfl⟩ := h'
      simp only [List.cons_append, List.append_assoc, List.cons.injEq, true_and,
        List.nil_append] at heq
      obtain ⟨rfl, rfl⟩ := closed_of_chars hraw hraw' heq
      exact ⟨rfl, rfl⟩
    | _ => cases hbare
  | number n =>
    cases k' with
    | number n' =>
      obtain ⟨rfl, hn⟩ := h
      obtain ⟨rfl, hn'⟩ := h'
      have hb : b = b' := by
        rw [number_eq_takeWhile hn (hd b rfl), number_eq_takeWhile hn' (hd' b' rfl), heq]
      subst hb
      exact ⟨rfl, List.append_cancel_left heq⟩
    | _ => cases hbare
  | _ =>
    cases k' <;> cases hbare
    obtain rfl := h
    obtain rfl := h'
    exact ⟨rfl, List.append_cancel_left heq⟩

/-- White space in front of text that does not start with any is determined. -/
theorem ws_unique {w w' b b' : List UInt8} {c c' : UInt8} (hw : Ws w) (hw' : Ws w')
    (hc : ¬ (c = 0x20 ∨ c = 0x09 ∨ c = 0x0D ∨ c = 0x0A))
    (hc' : ¬ (c' = 0x20 ∨ c' = 0x09 ∨ c' = 0x0D ∨ c' = 0x0A))
    (heq : w ++ c :: b = w' ++ c' :: b') : c :: b = c' :: b' := by
  induction w generalizing w' with
  | nil =>
    cases w' with
    | nil => exact heq
    | cons a w' =>
      rw [(List.cons.inj heq).1] at hc
      exact absurd (by have := hw' a List.mem_cons_self; tauto) hc
  | cons a w ih =>
    cases w' with
    | nil =>
      rw [← (List.cons.inj heq).1] at hc'
      exact absurd (by have := hw a List.mem_cons_self; tauto) hc'
    | cons a' w' =>
      exact ih (fun b hb ↦ hw b (List.mem_cons_of_mem _ hb))
        (fun b hb ↦ hw' b (List.mem_cons_of_mem _ hb)) (List.cons.inj heq).2

/-- **The tokens of a text are determined.** -/
theorem spelled_unique {ks : List Token} :
    ∀ {ks' : List Token} {t : List UInt8}, Spelled ks t → Spelled ks' t → ks = ks' := by
  -- a text that starts with a token is not white space
  have hnil : ∀ {k : Token} {ks : List Token} {t : List UInt8}, Ws t → ¬ Spelled (k :: ks) t := by
    intro k ks t ht h
    obtain ⟨w, b, r, -, hb, -, -, rfl⟩ := spelled_cons_iff.1 h
    obtain ⟨c, t, rfl, -, hc⟩ := head_of_tokenText hb
    have := ht c (by simp)
    tauto
  induction ks with
  | nil =>
    intro ks' t h h'
    cases ks' with
    | nil => rfl
    | cons k' ks' =>
      cases h with
      | nil hw => exact absurd h' (hnil hw)
  | cons k ks ih =>
    intro ks' t h h'
    cases ks' with
    | nil =>
      cases h' with
      | nil hw => exact absurd h (hnil hw)
    | cons k' ks' =>
      obtain ⟨w, b, r, hw, hb, hd, hr, rfl⟩ := spelled_cons_iff.1 h
      obtain ⟨w', b', r', hw', hb', hd', hr', heq⟩ := spelled_cons_iff.1 h'
      obtain ⟨c, t, rfl, -, hc⟩ := head_of_tokenText hb
      obtain ⟨c', t', rfl, -, hc'⟩ := head_of_tokenText hb'
      rw [List.append_assoc, List.append_assoc] at heq
      obtain ⟨rfl, rfl⟩ := tokenText_unique hb hb' hd hd' (ws_unique hw hw' hc hc' heq)
      rw [ih hr hr']

/-- **A JSON text has one value.** -/
theorem isJsonText_unique {v v' : Value} {t : List UInt8} (h : IsJsonText v t)
    (h' : IsJsonText v' t) : v = v' :=
  Value.tokens_injective
    (spelled_unique (isJsonText_iff_spelled.1 h) (isJsonText_iff_spelled.1 h'))

end Rfc8259
