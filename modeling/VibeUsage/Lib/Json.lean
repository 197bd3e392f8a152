import Mathlib

/-!
# RFC 8259 texts over bytes

The grammar of a JSON text, transcribed from the ABNF of RFC 8259 and read over UTF-8 octets. A
string is represented by the UTF-8 encoding of the text it denotes, so two strings are equal exactly
when their decoded texts are, and a number by its own token.

The grammar is stated twice and the two are proved equal:

* `IsText`, by recursion on the value, is the ABNF: white space around the six structural
  characters, a comma between items, a colon after a member's name;
* `Spelled` is the token view: a sequence of tokens, white space before each and after the last,
  and a number token never followed by a byte that could continue it.

A scanner works on the second, a reader checks the first; `isJsonText_iff_spelled` joins them.
-/

namespace Rfc8259

/-- A JSON value. `number` keeps the token, `string` the UTF-8 octets of the decoded text. -/
inductive Value where
  | null
  | bool (b : Bool)
  | number (text : List UInt8)
  | string (text : List UInt8)
  | array (items : List Value)
  | object (members : List (List UInt8 × Value))

/-- The lexical tokens of a JSON text. -/
inductive Token where
  | leftObject | rightObject | leftArray | rightArray | colon | comma
  | string (text : List UInt8)
  | number (text : List UInt8)
  | true | false | null
  deriving DecidableEq

/-! ### Octets, white space, numbers -/

/-- `ws = *( %x20 / %x09 / %x0A / %x0D )`. -/
def Ws (w : List UInt8) : Prop :=
  ∀ b ∈ w, b = 0x20 ∨ b = 0x09 ∨ b = 0x0A ∨ b = 0x0D

/-- `DIGIT`. -/
def IsDigit (b : UInt8) : Prop := 0x30 ≤ b ∧ b ≤ 0x39

instance (b : UInt8) : Decidable (IsDigit b) := inferInstanceAs (Decidable (_ ∧ _))

/-- `int = zero / ( digit1-9 *DIGIT )`. -/
def IsInt (t : List UInt8) : Prop :=
  t = [0x30] ∨ ∃ d ds, t = d :: ds ∧ IsDigit d ∧ d ≠ 0x30 ∧ ∀ b ∈ ds, IsDigit b

/-- A nonempty run of digits. -/
def IsDigits (t : List UInt8) : Prop :=
  t ≠ [] ∧ ∀ b ∈ t, IsDigit b

/-- `[ frac ]`, with `frac = decimal-point 1*DIGIT`. -/
def IsFrac (t : List UInt8) : Prop :=
  t = [] ∨ ∃ ds, t = 0x2E :: ds ∧ IsDigits ds

/-- `[ exp ]`, with `exp = e [ minus / plus ] 1*DIGIT`. -/
def IsExp (t : List UInt8) : Prop :=
  t = [] ∨ ∃ e sign ds, t = e :: (sign ++ ds) ∧ (e = 0x65 ∨ e = 0x45) ∧
    (sign = [] ∨ sign = [0x2B] ∨ sign = [0x2D]) ∧ IsDigits ds

/-- `number = [ minus ] int [ frac ] [ exp ]`. -/
def IsNumber (t : List UInt8) : Prop :=
  ∃ sign int frac exp, t = sign ++ int ++ frac ++ exp ∧ (sign = [] ∨ sign = [0x2D]) ∧
    IsInt int ∧ IsFrac frac ∧ IsExp exp

/-- The bytes that occur in a number token. -/
def NumberByte (b : UInt8) : Prop :=
  IsDigit b ∨ b = 0x2D ∨ b = 0x2B ∨ b = 0x2E ∨ b = 0x65 ∨ b = 0x45

instance (b : UInt8) : Decidable (NumberByte b) := inferInstanceAs (Decidable (_ ∨ _))

/-- A number starts with a minus or a digit, and only number bytes follow. -/
theorem exists_cons_of_isNumber {n : List UInt8} (h : IsNumber n) :
    ∃ c ds, n = c :: ds ∧ (c = 0x2D ∨ IsDigit c) ∧
      ∀ b ∈ ds, NumberByte b := by
  obtain ⟨sign, int, frac, exp, rfl, hsign, hint, hfrac, hexp⟩ := h
  have hdigit : ∀ b, IsDigit b → NumberByte b := fun b hb ↦
    Or.inl hb
  have hfrac' : ∀ b ∈ frac, NumberByte b := by
    rcases hfrac with rfl | ⟨ds, rfl, -, hds⟩
    · simp
    · intro b hb
      rcases List.mem_cons.1 hb with rfl | hb
      · decide
      · exact hdigit b (hds b hb)
  have hexp' : ∀ b ∈ exp, NumberByte b := by
    rcases hexp with rfl | ⟨e, sign, ds, rfl, he, hs, -, hds⟩
    · simp
    · intro b hb
      rcases List.mem_cons.1 hb with rfl | hb
      · rcases he with rfl | rfl <;> decide
      rcases List.mem_append.1 hb with hb | hb
      · rcases hs with rfl | rfl | rfl
        · cases hb
        · obtain rfl : b = 0x2B := by simpa using hb
          decide
        · obtain rfl : b = 0x2D := by simpa using hb
          decide
      · exact hdigit b (hds b hb)
  -- There is at least one digit before the point.
  obtain ⟨d, ds, rfl, hd, hds⟩ : ∃ d ds, int = d :: ds ∧ IsDigit d ∧ ∀ b ∈ ds, IsDigit b := by
    rcases hint with rfl | ⟨d, ds, rfl, hd, -, hds⟩
    · exact ⟨_, [], rfl, by decide, by simp⟩
    · exact ⟨d, ds, rfl, hd, hds⟩
  have htail : ∀ b ∈ ds ++ (frac ++ exp), NumberByte b := by
    intro b hb
    rcases List.mem_append.1 hb with hb | hb
    · exact hdigit b (hds b hb)
    rcases List.mem_append.1 hb with hb | hb
    · exact hfrac' b hb
    · exact hexp' b hb
  rcases hsign with rfl | rfl
  · exact ⟨d, ds ++ (frac ++ exp), by simp, Or.inr hd, htail⟩
  · refine ⟨0x2D, d :: (ds ++ (frac ++ exp)), by simp, Or.inl rfl, ?_⟩
    intro b hb
    rcases List.mem_cons.1 hb with rfl | hb
    · exact hdigit b hd
    · exact htail b hb

/-- No byte at the head of `r` could continue a number. -/
def Delimited (r : List UInt8) : Prop :=
  ∀ b ∈ r.head?, ¬ NumberByte b

/-- The end of a text delimits a number. -/
theorem delimited_nil : Delimited [] := by simp [Delimited]

/-- So does a byte that may not stand in one. -/
theorem delimited_cons {b : UInt8} {r : List UInt8} : Delimited (b :: r) ↔ ¬ NumberByte b := by
  simp [Delimited]

theorem Ws.nil : Ws [] := by simp [Ws]

/-- Space behind space. -/
theorem Ws.append {v w : List UInt8} (hv : Ws v) (hw : Ws w) : Ws (v ++ w) := by
  intro b hb
  rcases List.mem_append.1 hb with h | h
  · exact hv b h
  · exact hw b h

/-- White space before a delimited rest is delimited. -/
theorem Ws.delimited {w r : List UInt8} (hw : Ws w) (hr : Delimited r) : Delimited (w ++ r) := by
  cases w with
  | nil => exact hr
  | cons b w =>
    rw [List.cons_append, delimited_cons]
    rcases hw b List.mem_cons_self with rfl | rfl | rfl | rfl <;> decide

/-! ### Strings -/

/-- The value of a hexadecimal digit, in either case. -/
def hexDigit? (b : UInt8) : Option ℕ :=
  if 0x30 ≤ b ∧ b ≤ 0x39 then some (b.toNat - 0x30)
  else if 0x61 ≤ b ∧ b ≤ 0x66 then some (b.toNat - 0x61 + 10)
  else if 0x41 ≤ b ∧ b ≤ 0x46 then some (b.toNat - 0x41 + 10)
  else none

/-- `4HEXDIG`, most significant digit first. -/
def hex4? (a b c d : UInt8) : Option ℕ := do
  let a ← hexDigit? a
  let b ← hexDigit? b
  let c ← hexDigit? c
  let d ← hexDigit? d
  return ((a * 16 + b) * 16 + c) * 16 + d

/-- The two-character escapes and the character each stands for. -/
def simpleEscape? (e : UInt8) : Option UInt8 :=
  if e = 0x22 ∨ e = 0x5C ∨ e = 0x2F then some e
  else if e = 0x62 then some 0x08
  else if e = 0x66 then some 0x0C
  else if e = 0x6E then some 0x0A
  else if e = 0x72 then some 0x0D
  else if e = 0x74 then some 0x09
  else none

/-- `*char`, with the octets of the text it decodes to: unescaped characters in well-formed UTF-8
and no raw control character, two-character escapes, `\u` escapes of scalar values, and surrogate
escapes in pairs only. -/
inductive Chars : List UInt8 → List UInt8 → Prop where
  | nil : Chars [] []
  | unescaped {raw text : List UInt8} (c : Char) (hctl : 0x20 ≤ c.toNat) (hquote : c ≠ '"')
      (hslash : c ≠ '\\') (rest : Chars raw text) :
      Chars (String.utf8EncodeChar c ++ raw) (String.utf8EncodeChar c ++ text)
  | escape {raw text : List UInt8} {e d : UInt8} (h : simpleEscape? e = some d)
      (rest : Chars raw text) : Chars (0x5C :: e :: raw) (d :: text)
  | unicode {raw text : List UInt8} {h₁ h₂ h₃ h₄ : UInt8} (c : Char)
      (h : hex4? h₁ h₂ h₃ h₄ = some c.toNat) (rest : Chars raw text) :
      Chars (0x5C :: 0x75 :: h₁ :: h₂ :: h₃ :: h₄ :: raw) (String.utf8EncodeChar c ++ text)
  | surrogates {raw text : List UInt8} {h₁ h₂ h₃ h₄ l₁ l₂ l₃ l₄ : UInt8} {hi lo : ℕ} (c : Char)
      (hhex : hex4? h₁ h₂ h₃ h₄ = some hi) (lhex : hex4? l₁ l₂ l₃ l₄ = some lo)
      (hhi : 0xD800 ≤ hi ∧ hi ≤ 0xDBFF) (hlo : 0xDC00 ≤ lo ∧ lo ≤ 0xDFFF)
      (hc : c.toNat = 0x10000 + (hi - 0xD800) * 0x400 + (lo - 0xDC00)) (rest : Chars raw text) :
      Chars (0x5C :: 0x75 :: h₁ :: h₂ :: h₃ :: h₄ :: 0x5C :: 0x75 :: l₁ :: l₂ :: l₃ :: l₄ :: raw)
        (String.utf8EncodeChar c ++ text)

/-- `string = quotation-mark *char quotation-mark`, denoting the octets `text`. -/
def IsString (text t : List UInt8) : Prop :=
  ∃ raw, Chars raw text ∧ t = 0x22 :: raw ++ [0x22]

/-! ### Values -/

mutual

/-- `value`: `t` spells `v`, with no white space outside it. -/
def IsText : Value → List UInt8 → Prop
  | .null, t => t = [0x6E, 0x75, 0x6C, 0x6C]
  | .bool true, t => t = [0x74, 0x72, 0x75, 0x65]
  | .bool false, t => t = [0x66, 0x61, 0x6C, 0x73, 0x65]
  | .number n, t => t = n ∧ IsNumber n
  | .string s, t => IsString s t
  | .array items, t => ∃ body, t = 0x5B :: body ++ [0x5D] ∧ IsItems items body
  | .object members, t => ∃ body, t = 0x7B :: body ++ [0x7D] ∧ IsMembers members body

/-- `[ value *( value-separator value ) ]`, with the white space the separators allow. -/
def IsItems : List Value → List UInt8 → Prop
  | [], t => Ws t
  | [v], t => ∃ w₁ b w₂, Ws w₁ ∧ IsText v b ∧ Ws w₂ ∧ t = w₁ ++ b ++ w₂
  | v :: u :: vs, t => ∃ w₁ b w₂ r, Ws w₁ ∧ IsText v b ∧ Ws w₂ ∧ IsItems (u :: vs) r ∧
      t = w₁ ++ b ++ w₂ ++ 0x2C :: r

/-- `[ member *( value-separator member ) ]`, `member = string name-separator value`. -/
def IsMembers : List (List UInt8 × Value) → List UInt8 → Prop
  | [], t => Ws t
  | [(k, v)], t => ∃ w₁ s w₂ w₃ b w₄, Ws w₁ ∧ IsString k s ∧ Ws w₂ ∧ Ws w₃ ∧ IsText v b ∧
      Ws w₄ ∧ t = w₁ ++ s ++ w₂ ++ 0x3A :: (w₃ ++ b ++ w₄)
  | (k, v) :: m :: ms, t => ∃ w₁ s w₂ w₃ b w₄ r, Ws w₁ ∧ IsString k s ∧ Ws w₂ ∧ Ws w₃ ∧
      IsText v b ∧ Ws w₄ ∧ IsMembers (m :: ms) r ∧
      t = w₁ ++ s ++ w₂ ++ 0x3A :: (w₃ ++ b ++ w₄ ++ 0x2C :: r)

end

/-- `JSON-text = ws value ws`. -/
def IsJsonText (v : Value) (t : List UInt8) : Prop :=
  ∃ w₁ b w₂, Ws w₁ ∧ IsText v b ∧ Ws w₂ ∧ t = w₁ ++ b ++ w₂

mutual

/-- How many containers are open at once, at most, while the value is written. -/
def Value.depth : Value → ℕ
  | .array items => itemsDepth items + 1
  | .object members => membersDepth members + 1
  | _ => 0

def itemsDepth : List Value → ℕ
  | [] => 0
  | v :: vs => max v.depth (itemsDepth vs)

def membersDepth : List (List UInt8 × Value) → ℕ
  | [] => 0
  | (_, v) :: ms => max v.depth (membersDepth ms)

end

/-! ### The token view -/

mutual

/-- The tokens of a value, in order. -/
def Value.tokens : Value → List Token
  | .null => [.null]
  | .bool true => [.true]
  | .bool false => [.false]
  | .number n => [.number n]
  | .string s => [.string s]
  | .array items => .leftArray :: (itemsTokens items ++ [.rightArray])
  | .object members => .leftObject :: (membersTokens members ++ [.rightObject])

def itemsTokens : List Value → List Token
  | [] => []
  | [v] => v.tokens
  | v :: u :: vs => v.tokens ++ .comma :: itemsTokens (u :: vs)

def membersTokens : List (List UInt8 × Value) → List Token
  | [] => []
  | [(k, v)] => .string k :: .colon :: v.tokens
  | (k, v) :: m :: ms => .string k :: .colon :: (v.tokens ++ .comma :: membersTokens (m :: ms))

end

/-- The bytes of one token. -/
def TokenText : Token → List UInt8 → Prop
  | .leftObject, t => t = [0x7B]
  | .rightObject, t => t = [0x7D]
  | .leftArray, t => t = [0x5B]
  | .rightArray, t => t = [0x5D]
  | .colon, t => t = [0x3A]
  | .comma, t => t = [0x2C]
  | .string s, t => IsString s t
  | .number n, t => t = n ∧ IsNumber n
  | .true, t => t = [0x74, 0x72, 0x75, 0x65]
  | .false, t => t = [0x66, 0x61, 0x6C, 0x73, 0x65]
  | .null, t => t = [0x6E, 0x75, 0x6C, 0x6C]

/-- `t` spells the token sequence: white space anywhere between tokens, and a number token ended by
a byte that cannot continue it, or by the end of the text. -/
inductive Spelled : List Token → List UInt8 → Prop where
  | nil {w : List UInt8} (hw : Ws w) : Spelled [] w
  | cons {k : Token} {ks : List Token} {w b r : List UInt8} (hw : Ws w) (hb : TokenText k b)
      (hd : ∀ n, k = .number n → Delimited r) (hr : Spelled ks r) :
      Spelled (k :: ks) (w ++ b ++ r)

/-- A token has a byte. -/
theorem length_pos_of_tokenText {k : Token} {b : List UInt8} (h : TokenText k b) :
    0 < b.length := by
  cases k with
  | string s =>
    obtain ⟨raw, -, rfl⟩ := h
    simp
  | number n =>
    obtain ⟨rfl, sign, int, frac, exp, rfl, -, hint, -⟩ := h
    have hpos : 0 < int.length := by
      rcases hint with rfl | ⟨d, ds, rfl, -⟩ <;> simp
    simp only [List.length_append]
    omega
  | _ =>
    obtain rfl := h
    simp

/-- White space in front of a spelling is part of it. -/
theorem Spelled.ws_append {ks : List Token} {w t : List UInt8} (hw : Ws w) (h : Spelled ks t) :
    Spelled ks (w ++ t) := by
  cases h with
  | nil hv => exact .nil (hw.append hv)
  | @cons k ks v b r hv hb hd hr =>
    have : w ++ (v ++ b ++ r) = (w ++ v) ++ b ++ r := by simp [List.append_assoc]
    rw [this]
    exact .cons (hw.append hv) hb hd hr

/-- A token other than a number needs no delimiter. -/
theorem Spelled.token {k : Token} {ks : List Token} {b r : List UInt8}
    (hk : ∀ n, k ≠ .number n) (hb : TokenText k b) (hr : Spelled ks r) :
    Spelled (k :: ks) (b ++ r) := by
  have h := Spelled.cons (w := []) Ws.nil hb (fun n hn ↦ absurd hn (hk n)) hr
  simpa using h

/-- The structural characters, in the form the induction below uses. -/
theorem Spelled.byte {k : Token} {ks : List Token} {b : UInt8} {r : List UInt8}
    (hk : ∀ n, k ≠ .number n) (hb : TokenText k [b]) (hr : Spelled ks r) :
    Spelled (k :: ks) (b :: r) :=
  Spelled.token hk hb hr

mutual

/-- A value's text, in front of a delimited spelling, spells the value's tokens. -/
theorem spelled_of_isText : ∀ {v : Value} {b : List UInt8}, IsText v b →
    ∀ {ks : List Token} {r : List UInt8}, Delimited r → Spelled ks r →
      Spelled (v.tokens ++ ks) (b ++ r)
  | .null, b, h, ks, r, _, hr => .token (by simp) h hr
  | .bool true, b, h, ks, r, _, hr => .token (by simp) h hr
  | .bool false, b, h, ks, r, _, hr => .token (by simp) h hr
  | .number n, b, h, ks, r, hd, hr => by
    have h' := Spelled.cons (w := []) Ws.nil (k := .number n) h (fun _ _ ↦ hd) hr
    simpa [Value.tokens] using h'
  | .string s, b, h, ks, r, _, hr => .token (by simp) h hr
  | .array items, b, h, ks, r, _, hr => by
    obtain ⟨body, rfl, hitems⟩ := h
    have hclose : Spelled (.rightArray :: ks) (0x5D :: r) := .byte (by simp) rfl hr
    have hbody := spelled_of_isItems hitems (by rw [delimited_cons]; decide) hclose
    simpa [Value.tokens, List.append_assoc] using
      Spelled.byte (k := .leftArray) (by simp) rfl hbody
  | .object members, b, h, ks, r, _, hr => by
    obtain ⟨body, rfl, hmembers⟩ := h
    have hclose : Spelled (.rightObject :: ks) (0x7D :: r) := .byte (by simp) rfl hr
    have hbody := spelled_of_isMembers hmembers (by rw [delimited_cons]; decide) hclose
    simpa [Value.tokens, List.append_assoc] using
      Spelled.byte (k := .leftObject) (by simp) rfl hbody

/-- **The items of an array** are spelled by their tokens. -/
theorem spelled_of_isItems : ∀ {vs : List Value} {b : List UInt8}, IsItems vs b →
    ∀ {ks : List Token} {r : List UInt8}, Delimited r → Spelled ks r →
      Spelled (itemsTokens vs ++ ks) (b ++ r)
  | [], b, h, ks, r, _, hr => hr.ws_append h
  | [v], b, h, ks, r, hd, hr => by
    obtain ⟨w₁, t, w₂, hw₁, ht, hw₂, rfl⟩ := h
    have h₂ := spelled_of_isText ht (hw₂.delimited hd) (hr.ws_append hw₂)
    simpa [itemsTokens, List.append_assoc] using h₂.ws_append hw₁
  | v :: u :: vs, b, h, ks, r, hd, hr => by
    obtain ⟨w₁, t, w₂, rest, hw₁, ht, hw₂, hrest, rfl⟩ := h
    have h₃ := spelled_of_isItems hrest hd hr
    have hcomma : Spelled (.comma :: (itemsTokens (u :: vs) ++ ks)) (0x2C :: (rest ++ r)) :=
      .byte (by simp) rfl h₃
    have h₂ := spelled_of_isText ht
      (hw₂.delimited (by rw [delimited_cons]; decide)) (hcomma.ws_append hw₂)
    simpa [itemsTokens, List.append_assoc] using h₂.ws_append hw₁

/-- **The members of an object** are spelled by theirs. -/
theorem spelled_of_isMembers : ∀ {ms : List (List UInt8 × Value)} {b : List UInt8},
    IsMembers ms b → ∀ {ks : List Token} {r : List UInt8}, Delimited r → Spelled ks r →
      Spelled (membersTokens ms ++ ks) (b ++ r)
  | [], b, h, ks, r, _, hr => hr.ws_append h
  | [(k, v)], b, h, ks, r, hd, hr => by
    obtain ⟨w₁, s, w₂, w₃, t, w₄, hw₁, hs, hw₂, hw₃, ht, hw₄, rfl⟩ := h
    have h₃ := spelled_of_isText ht (hw₄.delimited hd) (hr.ws_append hw₄)
    have hcolon : Spelled (.colon :: (v.tokens ++ ks)) (0x3A :: (w₃ ++ (t ++ (w₄ ++ r)))) :=
      .byte (by simp) rfl (h₃.ws_append hw₃)
    have hname := Spelled.token (k := .string k) (by simp) hs (hcolon.ws_append hw₂)
    simpa [membersTokens, List.append_assoc] using hname.ws_append hw₁
  | (k, v) :: m :: ms, b, h, ks, r, hd, hr => by
    obtain ⟨w₁, s, w₂, w₃, t, w₄, rest, hw₁, hs, hw₂, hw₃, ht, hw₄, hrest, rfl⟩ := h
    have h₄ := spelled_of_isMembers hrest hd hr
    have hcomma : Spelled (.comma :: (membersTokens (m :: ms) ++ ks)) (0x2C :: (rest ++ r)) :=
      .byte (by simp) rfl h₄
    have h₃ := spelled_of_isText ht
      (hw₄.delimited (by rw [delimited_cons]; decide)) (hcomma.ws_append hw₄)
    have hcolon := Spelled.byte (k := .colon) (by simp) rfl (h₃.ws_append hw₃)
    have hname := Spelled.token (k := .string k) (by simp) hs (hcolon.ws_append hw₂)
    simpa [membersTokens, List.append_assoc] using hname.ws_append hw₁

end

/-- Splitting the first token off a spelling. -/
theorem spelled_cons_iff {k : Token} {ks : List Token} {t : List UInt8} :
    Spelled (k :: ks) t ↔ ∃ w b r, Ws w ∧ TokenText k b ∧ (∀ n, k = .number n → Delimited r) ∧
      Spelled ks r ∧ t = w ++ b ++ r := by
  constructor
  · intro h
    cases h with
    | @cons _ _ w b r hw hb hd hr => exact ⟨w, b, r, hw, hb, hd, hr, rfl⟩
  · rintro ⟨w, b, r, hw, hb, hd, hr, rfl⟩
    exact .cons hw hb hd hr

mutual

/-- A spelling that starts with a value's tokens starts with a text of the value. -/
theorem isText_of_spelled : ∀ {v : Value} {ks : List Token} {t : List UInt8},
    Spelled (v.tokens ++ ks) t → ∃ w b r, Ws w ∧ IsText v b ∧ Spelled ks r ∧ t = w ++ b ++ r
  | .null, ks, t, h => by
    obtain ⟨w, b, r, hw, hb, -, hr, rfl⟩ := spelled_cons_iff.1 h
    exact ⟨w, b, r, hw, hb, hr, rfl⟩
  | .bool true, ks, t, h => by
    obtain ⟨w, b, r, hw, hb, -, hr, rfl⟩ := spelled_cons_iff.1 h
    exact ⟨w, b, r, hw, hb, hr, rfl⟩
  | .bool false, ks, t, h => by
    obtain ⟨w, b, r, hw, hb, -, hr, rfl⟩ := spelled_cons_iff.1 h
    exact ⟨w, b, r, hw, hb, hr, rfl⟩
  | .number n, ks, t, h => by
    obtain ⟨w, b, r, hw, hb, -, hr, rfl⟩ := spelled_cons_iff.1 h
    exact ⟨w, b, r, hw, hb, hr, rfl⟩
  | .string s, ks, t, h => by
    obtain ⟨w, b, r, hw, hb, -, hr, rfl⟩ := spelled_cons_iff.1 h
    exact ⟨w, b, r, hw, hb, hr, rfl⟩
  | .array items, ks, t, h => by
    have h' : Spelled (.leftArray :: (itemsTokens items ++ .rightArray :: ks)) t := by
      simpa [Value.tokens, List.append_assoc] using h
    obtain ⟨w, b, r, hw, rfl, -, hr, rfl⟩ := spelled_cons_iff.1 h'
    obtain ⟨body, r', hbody, hr', rfl⟩ := isItems_of_spelled hr
    obtain ⟨w', b', r'', hw', rfl, -, hr'', rfl⟩ := spelled_cons_iff.1 hr'
    refine ⟨w, 0x5B :: (body ++ w') ++ [0x5D], r'', hw, ⟨body ++ w', rfl, ?_⟩, hr'', by simp⟩
    exact hbody w' hw'
  | .object members, ks, t, h => by
    have h' : Spelled (.leftObject :: (membersTokens members ++ .rightObject :: ks)) t := by
      simpa [Value.tokens, List.append_assoc] using h
    obtain ⟨w, b, r, hw, rfl, -, hr, rfl⟩ := spelled_cons_iff.1 h'
    obtain ⟨body, r', hbody, hr', rfl⟩ := isMembers_of_spelled hr
    obtain ⟨w', b', r'', hw', rfl, -, hr'', rfl⟩ := spelled_cons_iff.1 hr'
    refine ⟨w, 0x7B :: (body ++ w') ++ [0x7D], r'', hw, ⟨body ++ w', rfl, ?_⟩, hr'', by simp⟩
    exact hbody w' hw'

/-- The same for a run of items; the white space before the closing token belongs to it. -/
theorem isItems_of_spelled : ∀ {vs : List Value} {ks : List Token} {t : List UInt8},
    Spelled (itemsTokens vs ++ ks) t →
      ∃ body r, (∀ w, Ws w → IsItems vs (body ++ w)) ∧ Spelled ks r ∧ t = body ++ r
  | [], ks, t, h => ⟨[], t, fun w hw ↦ hw, h, rfl⟩
  | [v], ks, t, h => by
    obtain ⟨w, b, r, hw, hb, hr, rfl⟩ := isText_of_spelled h
    exact ⟨w ++ b, r, fun w' hw' ↦ ⟨w, b, w', hw, hb, hw', rfl⟩, hr, rfl⟩
  | v :: u :: vs, ks, t, h => by
    have h' : Spelled (v.tokens ++ .comma :: (itemsTokens (u :: vs) ++ ks)) t := by
      simpa [itemsTokens, List.append_assoc] using h
    obtain ⟨w, b, r, hw, hb, hr, rfl⟩ := isText_of_spelled h'
    obtain ⟨w₂, c, r₂, hw₂, rfl, -, hr₂, rfl⟩ := spelled_cons_iff.1 hr
    obtain ⟨body, r₃, hbody, hr₃, rfl⟩ := isItems_of_spelled hr₂
    refine ⟨w ++ b ++ w₂ ++ 0x2C :: body, r₃, fun w' hw' ↦ ?_, hr₃, by simp⟩
    exact ⟨w, b, w₂, body ++ w', hw, hb, hw₂, hbody w' hw', by simp⟩

/-- What the tokens of members spell is their text. -/
theorem isMembers_of_spelled : ∀ {ms : List (List UInt8 × Value)} {ks : List Token}
    {t : List UInt8}, Spelled (membersTokens ms ++ ks) t →
      ∃ body r, (∀ w, Ws w → IsMembers ms (body ++ w)) ∧ Spelled ks r ∧ t = body ++ r
  | [], ks, t, h => ⟨[], t, fun w hw ↦ hw, h, rfl⟩
  | [(k, v)], ks, t, h => by
    have h' : Spelled (.string k :: .colon :: (v.tokens ++ ks)) t := by
      simpa [membersTokens] using h
    obtain ⟨w₁, s, r₁, hw₁, hs, -, hr₁, rfl⟩ := spelled_cons_iff.1 h'
    obtain ⟨w₂, c, r₂, hw₂, rfl, -, hr₂, rfl⟩ := spelled_cons_iff.1 hr₁
    obtain ⟨w₃, b, r, hw₃, hb, hr, rfl⟩ := isText_of_spelled hr₂
    refine ⟨w₁ ++ s ++ w₂ ++ 0x3A :: (w₃ ++ b), r, fun w' hw' ↦ ?_, hr, by simp⟩
    exact ⟨w₁, s, w₂, w₃, b, w', hw₁, hs, hw₂, hw₃, hb, hw', by simp⟩
  | (k, v) :: m :: ms, ks, t, h => by
    have h' : Spelled (.string k :: .colon ::
        (v.tokens ++ .comma :: (membersTokens (m :: ms) ++ ks))) t := by
      simpa [membersTokens, List.append_assoc] using h
    obtain ⟨w₁, s, r₁, hw₁, hs, -, hr₁, rfl⟩ := spelled_cons_iff.1 h'
    obtain ⟨w₂, c, r₂, hw₂, rfl, -, hr₂, rfl⟩ := spelled_cons_iff.1 hr₁
    obtain ⟨w₃, b, r, hw₃, hb, hr, rfl⟩ := isText_of_spelled hr₂
    obtain ⟨w₄, c', r₄, hw₄, rfl, -, hr₄, rfl⟩ := spelled_cons_iff.1 hr
    obtain ⟨body, r₅, hbody, hr₅, rfl⟩ := isMembers_of_spelled hr₄
    refine ⟨w₁ ++ s ++ w₂ ++ 0x3A :: (w₃ ++ b ++ w₄ ++ 0x2C :: body), r₅, fun w' hw' ↦ ?_, hr₅,
      by simp⟩
    exact ⟨w₁, s, w₂, w₃, b, w₄, body ++ w', hw₁, hs, hw₂, hw₃, hb, hw₄, hbody w' hw', by simp⟩

end

/-- **The two views agree.** A text derives a value exactly when it spells the value's tokens. -/
theorem isJsonText_iff_spelled {v : Value} {t : List UInt8} :
    IsJsonText v t ↔ Spelled v.tokens t := by
  constructor
  · rintro ⟨w₁, b, w₂, hw₁, hb, hw₂, rfl⟩
    have hd : Delimited w₂ := by simpa using hw₂.delimited delimited_nil
    have h : Spelled (v.tokens ++ []) (b ++ w₂) := spelled_of_isText hb hd (.nil hw₂)
    simpa using h.ws_append hw₁
  · intro h
    rw [← List.append_nil v.tokens] at h
    obtain ⟨w, b, r, hw, hb, hr, rfl⟩ := isText_of_spelled h
    cases hr with
    | nil hr => exact ⟨w, b, r, hw, hb, hr, rfl⟩

end Rfc8259
