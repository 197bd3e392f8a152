import VibeUsage.Lib.Json
import VibeUsage.Lib.Utf8
import VibeUsage.Parser.Feed

/-!
# The lexer inside a string

From its opening quote to its closing one a string is read without a token being emitted (`Silent`),
so the container stack does not move and only the lexer has to be followed. `At` says where in a
string the lexer is, with the decoded text so far: a text longer than the token buffer is held as
its first bytes, its length, and the flag that says it was cut.

Two results come out of one case analysis for each sub-state:

* `silent_of_chars`: the characters of a string are read, and the text held is the text they
  denote;
* `chars_of_accepts`: a body the machine accepts from inside a string continues with characters
  and a closing quote.
-/

namespace VibeUsage

open Rfc8259 (Chars hexDigit? hex4? simpleEscape?)
open Utf8 (IsScalar IsTail encode extend extend_tail tail isTail_tail and_mask or_tail
  shiftLeft_or shiftLeft_or_tail toNat_ofNat_of_lt)

/-! ### Silent steps -/

/-- Bytes consumed without a token. -/
inductive Silent : Lexer → List UInt8 → Lexer → Prop where
  | nil (lexer : Lexer) : Silent lexer [] lexer
  | cons {lexer lexer' lexer'' : Lexer} {byte : UInt8} {bytes : List UInt8}
      (h : lexStep lexer byte = .ok (lexer', true, none)) (hs : Silent lexer' bytes lexer'') :
      Silent lexer (byte :: bytes) lexer''

/-- Silent stretches follow one another. -/
theorem Silent.append {lexer lexer' lexer'' : Lexer} {a b : List UInt8}
    (h : Silent lexer a lexer') (h' : Silent lexer' b lexer'') : Silent lexer (a ++ b) lexer'' := by
  induction h with
  | nil => exact h'
  | cons hstep _ ih => exact .cons hstep (ih h')

/-- One byte without a token. -/
theorem Silent.single {lexer lexer' : Lexer} {byte : UInt8}
    (h : lexStep lexer byte = .ok (lexer', true, none)) : Silent lexer [byte] lexer' :=
  .cons h (.nil _)

/-- A silent byte leaves the stack alone. -/
theorem consume_of_silent {lexer lexer' : Lexer} {byte : UInt8} (g : Grammar)
    (h : lexStep lexer byte = .ok (lexer', true, none)) :
    Machine.consume ⟨lexer, g⟩ byte = .ok ⟨lexer', g⟩ := by
  have hbyte : lexByte ⟨lexer, g⟩ byte = .ok (⟨lexer', g⟩, true) := by
    rw [lexByte]
    show (lexStep lexer byte >>= _) = _
    rw [h]
    rfl
  rw [Machine.consume, hbyte]
  rfl

/-- The machine reads a body byte by byte. -/
theorem run_cons (m : Machine) (byte : UInt8) (body : List UInt8) :
    m.run (byte :: body) = (m.consume byte >>= fun m ↦ m.run body) := by
  simp only [Machine.run, List.foldlM_cons, bind_assoc]

/-- **A silent stretch** can be skipped, with the lexer that it leaves. -/
theorem Silent.run {lexer lexer' : Lexer} {bytes : List UInt8} (h : Silent lexer bytes lexer')
    (g : Grammar) (body : List UInt8) :
    Machine.run ⟨lexer, g⟩ (bytes ++ body) = Machine.run ⟨lexer', g⟩ body := by
  induction h with
  | nil => rfl
  | cons hstep _ ih =>
    rw [List.cons_append, run_cons, consume_of_silent g hstep]
    exact ih

/-- The machine reads the body to its end without an error. -/
def Machine.Accepts (m : Machine) (body : List UInt8) : Prop := ∃ m', m.run body = .ok m'

/-- Inside a token that has to be closed, an accepted body goes on, and with a byte the lexer takes.
-/
theorem exists_cons_of_accepts {m : Machine} {body : List UInt8} (h : m.Accepts body)
    (hidle : m.lexer.lexState ≠ .idle) (hnumber : m.lexer.lexState ≠ .number) :
    ∃ byte rest lexer token, body = byte :: rest ∧
      lexStep m.lexer byte = .ok (lexer, true, token) ∧
      (token = none → Machine.Accepts ⟨lexer, m.grammar⟩ rest) := by
  obtain ⟨m', h⟩ := h
  cases body with
  | nil =>
    have hrun : m.run [] = finishMachine m := rfl
    rw [hrun, finishMachine, finishToken] at h
    cases hs : m.lexer.lexState <;> rw [hs] at h <;>
      first | exact absurd hs hidle | exact absurd hs hnumber | cases h
  | cons byte rest =>
    rw [run_cons] at h
    rcases hs : lexStep m.lexer byte with e | ⟨lexer, consumed, token⟩
    · rw [Machine.consume, lexByte, hs] at h
      cases h
    · have hconsumed : consumed = true := by
        have hc := consumed_lexStep hnumber byte
        rw [hs] at hc
        exact hc
      subst hconsumed
      refine ⟨byte, rest, lexer, token, rfl, hs, ?_⟩
      rintro rfl
      rw [consume_of_silent m.grammar hs] at h
      exact ⟨m', h⟩

/-- A step known to be silent is the step that was taken. -/
theorem lexStep_unique {lexer l l' : Lexer} {byte : UInt8} {token : Option TokenKind}
    (h : lexStep lexer byte = .ok (l, true, token))
    (h' : lexStep lexer byte = .ok (l', true, none)) : l = l' ∧ token = none := by
  rw [h] at h'
  simpa using h'

/-! ### The text held -/

/-- The token buffer holds `text`: its first bytes, its length, and whether bytes are missing. -/
structure Lexer.Holds (lexer : Lexer) (text : List UInt8) : Prop where
  token : lexer.token = text.take (parserTokenBytes - 1)
  length : lexer.tokenTotalLength = text.length
  truncated : lexer.tokenTruncated = decide (parserTokenBytes ≤ text.length)

/-- A byte that is appended is held, or is counted as missing. -/
theorem Lexer.Holds.append {lexer : Lexer} {text : List UInt8} (h : lexer.Holds text)
    (byte : UInt8) : (tokenAppend lexer byte).Holds (text ++ [byte]) := by
  have htoken : lexer.token.length = min 1024 text.length := by
    rw [h.token, List.length_take]
    rfl
  unfold tokenAppend parserTokenBytes
  by_cases hroom : lexer.token.length + 1 < 1025
  · rw [if_pos hroom]
    have hshort : text.length < 1024 := by omega
    have hwhole : text.take 1024 = text := List.take_of_length_le (by omega)
    refine ⟨?_, by simp [h.length], ?_⟩
    · show lexer.token ++ [byte] = (text ++ [byte]).take 1024
      rw [h.token, show parserTokenBytes - 1 = 1024 from rfl, hwhole,
        List.take_of_length_le (by simp; omega)]
    · show lexer.tokenTruncated = _
      rw [h.truncated, decide_eq_decide]
      simp only [parserTokenBytes, List.length_append, List.length_singleton]
      omega
  · rw [if_neg hroom]
    have hlong : 1024 ≤ text.length := by omega
    refine ⟨?_, by simp [h.length], ?_⟩
    · show lexer.token = (text ++ [byte]).take 1024
      rw [h.token, List.take_append_of_le_length hlong]
      rfl
    · show true = _
      simp only [parserTokenBytes, List.length_append, List.length_singleton, true_eq_decide_iff]
      omega

section TokenAppend

variable (lexer : Lexer) (byte : UInt8)

@[simp] theorem tokenAppend_lexState : (tokenAppend lexer byte).lexState = lexer.lexState := by
  unfold tokenAppend; split <;> rfl

@[simp] theorem tokenAppend_pending :
    (tokenAppend lexer byte).pendingHighSurrogate = lexer.pendingHighSurrogate := by
  unfold tokenAppend; split <;> rfl

@[simp] theorem tokenAppend_utf8Remaining :
    (tokenAppend lexer byte).utf8Remaining = lexer.utf8Remaining := by
  unfold tokenAppend; split <;> rfl

@[simp] theorem tokenAppend_utf8Codepoint :
    (tokenAppend lexer byte).utf8Codepoint = lexer.utf8Codepoint := by
  unfold tokenAppend; split <;> rfl

@[simp] theorem tokenAppend_utf8Minimum :
    (tokenAppend lexer byte).utf8Minimum = lexer.utf8Minimum := by
  unfold tokenAppend; split <;> rfl

end TokenAppend

/-- Between the bytes of a string: no multi-byte character is open. -/
structure At (lexer : Lexer) (state : LexState) (text : List UInt8) (pending : ℕ) : Prop where
  state : lexer.lexState = state
  utf8 : lexer.utf8Remaining = 0
  surrogate : lexer.pendingHighSurrogate = pending
  holds : lexer.Holds text

/-- Inside a multi-byte character: `remaining` continuation bytes are owed to `codepoint`. -/
structure InCharacter (lexer : Lexer) (text : List UInt8) (remaining codepoint minimum : ℕ) :
    Prop where
  state : lexer.lexState = .string
  remaining : lexer.utf8Remaining = remaining
  codepoint : lexer.utf8Codepoint = codepoint
  minimum : lexer.utf8Minimum = minimum
  surrogate : lexer.pendingHighSurrogate = 0
  holds : lexer.Holds text

/-- A character without bytes to come is complete. -/
theorem InCharacter.at {lexer : Lexer} {text : List UInt8} {codepoint minimum : ℕ}
    (h : InCharacter lexer text 0 codepoint minimum) : At lexer .string text 0 :=
  ⟨h.state, h.remaining, h.surrogate, h.holds⟩

/-! ### Characters in UTF-8 -/

/-- Inside a character every byte is a continuation, or an error. -/
theorem lexStep_inCharacter {lexer : Lexer} {text : List UInt8} {remaining codepoint minimum : ℕ}
    (h : InCharacter lexer text (remaining + 1) codepoint minimum) (byte : UInt8) :
    lexStep lexer byte = lexContinuation lexer byte := by
  rw [lexStep, h.state]
  exact if_pos (by rw [h.remaining]; omega)

/-- What the last continuation byte of a character is checked for. -/
def Completes (remaining codepoint minimum : ℕ) : Prop :=
  remaining = 0 → minimum ≤ codepoint ∧ IsScalar codepoint

/-- A continuation byte is taken. -/
theorem lexStep_tail {lexer : Lexer} {text : List UInt8} {remaining codepoint minimum : ℕ}
    {byte : UInt8} (h : InCharacter lexer text (remaining + 1) codepoint minimum)
    (hbyte : IsTail byte) (hlast : Completes remaining (extend codepoint byte) minimum) :
    ∃ lexer', lexStep lexer byte = .ok (lexer', true, none) ∧
      InCharacter lexer' (text ++ [byte]) remaining (extend codepoint byte) minimum := by
  have hrange : ¬ (byte < 0x80 ∨ byte > 0xBF) := by
    obtain ⟨hlo, hhi⟩ := hbyte
    simp only [UInt8.lt_iff_toNat_lt, gt_iff_lt, UInt8.reduceToNat]
    omega
  have hremaining : lexer.utf8Remaining - 1 = remaining := by rw [h.remaining]; rfl
  refine ⟨{ tokenAppend lexer byte with
    utf8Codepoint := extend codepoint byte, utf8Remaining := remaining }, ?_, ?_⟩
  · rw [lexStep_inCharacter h, lexContinuation, if_neg hrange]
    simp only [tokenAppend_utf8Codepoint, tokenAppend_utf8Remaining, tokenAppend_utf8Minimum,
      h.codepoint, h.minimum, hremaining, shiftLeft_or_tail hbyte]
    refine if_neg ?_
    rintro ⟨hzero, hbad⟩
    obtain ⟨hmin, hscalar⟩ := hlast hzero
    unfold IsScalar at hscalar
    omega
  · exact ⟨by simp [h.state], rfl, rfl, by simp [h.minimum], by simp [h.surrogate],
      ⟨(h.holds.append byte).token, (h.holds.append byte).length, (h.holds.append byte).truncated⟩⟩

/-- Nothing else is. -/
theorem tail_of_lexStep {lexer : Lexer} {text : List UInt8} {remaining codepoint minimum : ℕ}
    {byte : UInt8} {result : Lexer × Bool × Option TokenKind}
    (h : InCharacter lexer text (remaining + 1) codepoint minimum)
    (hok : lexStep lexer byte = .ok result) :
    IsTail byte ∧ Completes remaining (extend codepoint byte) minimum := by
  rw [lexStep_inCharacter h, lexContinuation] at hok
  split at hok
  · cases hok
  next hrange =>
    have hbyte : IsTail byte := by
      simp only [UInt8.lt_iff_toNat_lt, gt_iff_lt, UInt8.reduceToNat] at hrange
      unfold IsTail
      omega
    refine ⟨hbyte, ?_⟩
    have hremaining : lexer.utf8Remaining - 1 = remaining := by rw [h.remaining]; rfl
    simp only [tokenAppend_utf8Codepoint, tokenAppend_utf8Remaining, tokenAppend_utf8Minimum,
      h.codepoint, h.minimum, hremaining, shiftLeft_or_tail hbyte] at hok
    split at hok
    · cases hok
    next hgood =>
      intro hzero
      unfold IsScalar
      omega

/-- An open character of an accepted body goes on with a continuation byte. -/
theorem tail_of_accepts {lexer : Lexer} {g : Grammar} {body text : List UInt8}
    {remaining codepoint minimum : ℕ} (hrun : Machine.Accepts ⟨lexer, g⟩ body)
    (h : InCharacter lexer text (remaining + 1) codepoint minimum) :
    ∃ byte rest lexer', body = byte :: rest ∧ IsTail byte ∧
      Completes remaining (extend codepoint byte) minimum ∧
      Machine.Accepts ⟨lexer', g⟩ rest ∧
      InCharacter lexer' (text ++ [byte]) remaining (extend codepoint byte) minimum := by
  obtain ⟨byte, rest, lexer₁, token, rfl, hstep, hrest⟩ := exists_cons_of_accepts hrun
    (by rw [h.state]; decide) (by rw [h.state]; decide)
  obtain ⟨hbyte, hlast⟩ := tail_of_lexStep h hstep
  obtain ⟨lexer', hstep', hin⟩ := lexStep_tail h hbyte hlast
  obtain ⟨rfl, rfl⟩ := lexStep_unique hstep hstep'
  exact ⟨byte, rest, lexer₁, rfl, hbyte, hlast, hrest rfl, hin⟩

/-- Between characters every byte begins one. -/
theorem lexStep_string {lexer : Lexer} {text : List UInt8} {pending : ℕ}
    (h : At lexer .string text pending) (byte : UInt8) :
    lexStep lexer byte = lexStringStart lexer byte := by
  rw [lexStep, h.state]
  exact if_neg (by rw [h.utf8]; simp)

/-- A character of one byte is taken as it is. -/
theorem lexStep_ascii {lexer : Lexer} {text : List UInt8} {byte : UInt8}
    (h : At lexer .string text 0) (hctl : 0x20 ≤ byte.toNat) (hascii : byte.toNat < 0x80)
    (hquote : byte ≠ 0x22) (hslash : byte ≠ 0x5C) :
    ∃ lexer', lexStep lexer byte = .ok (lexer', true, none) ∧
      At lexer' .string (text ++ [byte]) 0 := by
  refine ⟨tokenAppend lexer byte, ?_, ?_⟩
  · rw [lexStep_string h, lexStringStart, if_neg hquote, if_neg hslash, if_neg, if_pos]
    · simpa [UInt8.lt_iff_toNat_lt] using hascii
    · simpa [UInt8.lt_iff_toNat_lt] using hctl
  · exact ⟨by simp [h.state], by simp [h.utf8], by simp [h.surrogate], h.holds.append byte⟩

/-- The lead bytes of two, three and four: how many tails follow, what is subtracted from the byte,
and the smallest code point that needs them. -/
def Lead (byte : UInt8) (remaining marker minimum : ℕ) : Prop :=
  (remaining = 1 ∧ marker = 0xC0 ∧ minimum = 0x80 ∧ 0xC2 ≤ byte.toNat ∧ byte.toNat ≤ 0xDF) ∨
  (remaining = 2 ∧ marker = 0xE0 ∧ minimum = 0x800 ∧ 0xE0 ≤ byte.toNat ∧ byte.toNat ≤ 0xEF) ∨
  (remaining = 3 ∧ marker = 0xF0 ∧ minimum = 0x10000 ∧ 0xF0 ≤ byte.toNat ∧ byte.toNat ≤ 0xF4)

/-- The first byte of a longer character says how many follow. -/
theorem lexStep_lead {lexer : Lexer} {text : List UInt8} {byte : UInt8}
    {remaining marker minimum : ℕ} (h : At lexer .string text 0)
    (hlead : Lead byte remaining marker minimum) :
    ∃ lexer', lexStep lexer byte = .ok (lexer', true, none) ∧
      InCharacter lexer' (text ++ [byte]) remaining (byte.toNat - marker) minimum := by
  refine ⟨tokenAppend { lexer with
    utf8Remaining := remaining, utf8Codepoint := byte.toNat - marker, utf8Minimum := minimum }
    byte, ?_, ?_⟩
  · have hge : ¬ byte < 0x80 := by
      rcases hlead with ⟨-, -, -, h₁, -⟩ | ⟨-, -, -, h₁, -⟩ | ⟨-, -, -, h₁, -⟩ <;>
        simp only [UInt8.lt_iff_toNat_lt, UInt8.reduceToNat] <;> omega
    have hquote : byte ≠ 0x22 := by rintro rfl; exact hge (by decide)
    have hslash : byte ≠ 0x5C := by rintro rfl; exact hge (by decide)
    have hctl : ¬ byte < 0x20 := fun hlt ↦ hge (by
      simp only [UInt8.lt_iff_toNat_lt, UInt8.reduceToNat] at hlt ⊢; omega)
    rw [lexStep_string h, lexStringStart, if_neg hquote, if_neg hslash, if_neg hctl, if_neg hge]
    simp only [UInt8.le_iff_toNat_le, UInt8.reduceToNat]
    rcases hlead with ⟨rfl, rfl, rfl, h₁, h₂⟩ | ⟨rfl, rfl, rfl, h₁, h₂⟩ | ⟨rfl, rfl, rfl, h₁, h₂⟩
    · rw [if_pos ⟨h₁, h₂⟩, show byte.toNat &&& 0x1F = byte.toNat % 32 from and_mask _ 5,
        show byte.toNat % 32 = byte.toNat - 0xC0 by omega]
    · rw [if_neg (by omega), if_pos ⟨h₁, h₂⟩,
        show byte.toNat &&& 0x0F = byte.toNat % 16 from and_mask _ 4,
        show byte.toNat % 16 = byte.toNat - 0xE0 by omega]
    · rw [if_neg (by omega), if_neg (by omega), if_pos ⟨h₁, h₂⟩,
        show byte.toNat &&& 0x07 = byte.toNat % 8 from and_mask _ 3,
        show byte.toNat % 8 = byte.toNat - 0xF0 by omega]
  · have hholds : Lexer.Holds { lexer with
        utf8Remaining := remaining, utf8Codepoint := byte.toNat - marker
        utf8Minimum := minimum } text := ⟨h.holds.token, h.holds.length, h.holds.truncated⟩
    exact ⟨by simp [h.state], by simp, by simp, by simp, by simp [h.surrogate],
      hholds.append byte⟩

/-- An unescaped character. -/
def Unescaped (n : ℕ) : Prop := IsScalar n ∧ 0x20 ≤ n ∧ n ≠ 0x22 ∧ n ≠ 0x5C

/-- A character beyond ASCII needs no escape. -/
theorem unescaped_of_ge {n : ℕ} (h : IsScalar n) (hge : 0x80 ≤ n) : Unescaped n :=
  ⟨h, by omega, by omega, by omega⟩

/-- **A well-formed character is read**, whatever its length. -/
theorem silent_encode {lexer : Lexer} {text : List UInt8} {n : ℕ} (h : At lexer .string text 0)
    (hn : Unescaped n) :
    ∃ lexer', Silent lexer (encode n) lexer' ∧ At lexer' .string (text ++ encode n) 0 := by
  obtain ⟨hscalar, hctl, hquote, hslash⟩ := hn
  have hmax := hscalar.1
  unfold encode
  -- As many bytes as UTF-8 needs: the first sets up what the others extend.
  by_cases h₁ : n < 0x80
  · rw [if_pos h₁]
    have hnat : (UInt8.ofNat n).toNat = n := toNat_ofNat_of_lt (by omega)
    obtain ⟨l₁, hs₁, hat⟩ := lexStep_ascii h
      (show 0x20 ≤ (UInt8.ofNat n).toNat by omega) (by omega)
      (fun he ↦ hquote (by simpa [he] using hnat.symm))
      (fun he ↦ hslash (by simpa [he] using hnat.symm))
    exact ⟨l₁, .single hs₁, hat⟩
  rw [if_neg h₁]
  by_cases h₂ : n < 0x800
  · rw [if_pos h₂]
    have hnat : (UInt8.ofNat (0xC0 + n / 64)).toNat = 0xC0 + n / 64 := toNat_ofNat_of_lt (by omega)
    obtain ⟨l₁, hs₁, hin₁⟩ := lexStep_lead h
      (show Lead (UInt8.ofNat (0xC0 + n / 64)) 1 0xC0 0x80 from
        Or.inl ⟨rfl, rfl, rfl, by omega, by omega⟩)
    rw [hnat, Nat.add_sub_cancel_left] at hin₁
    obtain ⟨l₂, hs₂, hin₂⟩ := lexStep_tail hin₁ (isTail_tail n)
      (fun _ ↦ by rw [extend_tail]; exact ⟨by omega, hscalar⟩)
    exact ⟨l₂, .cons hs₁ (.single hs₂), by simpa using hin₂.at⟩
  rw [if_neg h₂]
  by_cases h₃ : n < 0x10000
  · rw [if_pos h₃]
    have hnat : (UInt8.ofNat (0xE0 + n / 4096)).toNat = 0xE0 + n / 4096 :=
      toNat_ofNat_of_lt (by omega)
    obtain ⟨l₁, hs₁, hin₁⟩ := lexStep_lead h
      (show Lead (UInt8.ofNat (0xE0 + n / 4096)) 2 0xE0 0x800 from
        Or.inr (Or.inl ⟨rfl, rfl, rfl, by omega, by omega⟩))
    rw [hnat, Nat.add_sub_cancel_left, show n / 4096 = n / 64 / 64 by omega] at hin₁
    obtain ⟨l₂, hs₂, hin₂⟩ := lexStep_tail hin₁ (isTail_tail (n / 64))
      (fun hzero ↦ by omega)
    rw [extend_tail] at hin₂
    obtain ⟨l₃, hs₃, hin₃⟩ := lexStep_tail hin₂ (isTail_tail n)
      (fun _ ↦ by rw [extend_tail]; exact ⟨by omega, hscalar⟩)
    refine ⟨l₃, .cons hs₁ (.cons hs₂ (.single hs₃)), ?_⟩
    simpa [show n / 4096 = n / 64 / 64 by omega] using hin₃.at
  · rw [if_neg h₃]
    have hnat : (UInt8.ofNat (0xF0 + n / 262144)).toNat = 0xF0 + n / 262144 :=
      toNat_ofNat_of_lt (by omega)
    obtain ⟨l₁, hs₁, hin₁⟩ := lexStep_lead h
      (show Lead (UInt8.ofNat (0xF0 + n / 262144)) 3 0xF0 0x10000 from
        Or.inr (Or.inr ⟨rfl, rfl, rfl, by omega, by omega⟩))
    rw [hnat, Nat.add_sub_cancel_left, show n / 262144 = n / 4096 / 64 by omega] at hin₁
    obtain ⟨l₂, hs₂, hin₂⟩ := lexStep_tail hin₁ (isTail_tail (n / 4096))
      (fun hzero ↦ by omega)
    rw [extend_tail, show n / 4096 = n / 64 / 64 by omega] at hin₂
    obtain ⟨l₃, hs₃, hin₃⟩ := lexStep_tail hin₂ (isTail_tail (n / 64))
      (fun hzero ↦ by omega)
    rw [extend_tail] at hin₃
    obtain ⟨l₄, hs₄, hin₄⟩ := lexStep_tail hin₃ (isTail_tail n)
      (fun _ ↦ by rw [extend_tail]; exact ⟨by omega, hscalar⟩)
    refine ⟨l₄, .cons hs₁ (.cons ?_ (.cons hs₃ (.single hs₄))), ?_⟩
    · exact hs₂
    · simpa [show n / 4096 = n / 64 / 64 by omega,
        show n / 262144 = n / 64 / 64 / 64 by omega] using hin₄.at

/-- What the first byte of a character can be. -/
theorem start_of_lexStep {lexer : Lexer} {text : List UInt8} {byte : UInt8}
    {result : Lexer × Bool × Option TokenKind} (h : At lexer .string text 0)
    (hok : lexStep lexer byte = .ok result) :
    byte = 0x22 ∨ byte = 0x5C ∨
      (0x20 ≤ byte.toNat ∧ byte.toNat < 0x80 ∧ byte ≠ 0x22 ∧ byte ≠ 0x5C) ∨
      ∃ remaining marker minimum, Lead byte remaining marker minimum := by
  rw [lexStep_string h, lexStringStart] at hok
  by_cases hquote : byte = 0x22
  · exact Or.inl hquote
  by_cases hslash : byte = 0x5C
  · exact Or.inr (Or.inl hslash)
  rw [if_neg hquote, if_neg hslash] at hok
  simp only [UInt8.lt_iff_toNat_lt, UInt8.le_iff_toNat_le, UInt8.reduceToNat] at hok
  by_cases hctl : byte.toNat < 0x20
  · rw [if_pos hctl] at hok
    cases hok
  by_cases hascii : byte.toNat < 0x80
  · exact Or.inr (Or.inr (Or.inl ⟨by omega, hascii, hquote, hslash⟩))
  rw [if_neg hctl, if_neg hascii] at hok
  refine Or.inr (Or.inr (Or.inr ?_))
  by_cases h₂ : 0xC2 ≤ byte.toNat ∧ byte.toNat ≤ 0xDF
  · exact ⟨1, 0xC0, 0x80, Or.inl ⟨rfl, rfl, rfl, h₂⟩⟩
  by_cases h₃ : 0xE0 ≤ byte.toNat ∧ byte.toNat ≤ 0xEF
  · exact ⟨2, 0xE0, 0x800, Or.inr (Or.inl ⟨rfl, rfl, rfl, h₃⟩)⟩
  by_cases h₄ : 0xF0 ≤ byte.toNat ∧ byte.toNat ≤ 0xF4
  · exact ⟨3, 0xF0, 0x10000, Or.inr (Or.inr ⟨rfl, rfl, rfl, h₄⟩)⟩
  · rw [if_neg h₂, if_neg h₃, if_neg h₄] at hok
    cases hok

/-- **Only a well-formed character is read**: one that an accepted body opens is closed in it. -/
theorem encode_of_accepts {lexer : Lexer} {g : Grammar} {byte : UInt8} {rest text : List UInt8}
    {remaining marker minimum : ℕ} (hrun : Machine.Accepts ⟨lexer, g⟩ rest)
    (hlead : Lead byte remaining marker minimum)
    (h : InCharacter lexer (text ++ [byte]) remaining (byte.toNat - marker) minimum) :
    ∃ n rest' lexer', byte :: rest = encode n ++ rest' ∧ Unescaped n ∧
      Machine.Accepts ⟨lexer', g⟩ rest' ∧ At lexer' .string (text ++ encode n) 0 := by
  rcases hlead with ⟨rfl, rfl, rfl, ha⟩ | ⟨rfl, rfl, rfl, ha⟩ | ⟨rfl, rfl, rfl, ha, -⟩
  · obtain ⟨b, rest, l₁, rfl, hb, hlast, hrun, hin⟩ := tail_of_accepts hrun h
    obtain ⟨hmin, hscalar⟩ := hlast rfl
    have hencode := Utf8.encode_two ha hb
    refine ⟨_, rest, l₁, by rw [hencode]; rfl, unescaped_of_ge hscalar hmin, hrun, ?_⟩
    rw [hencode]
    simpa using hin.at
  · obtain ⟨b, rest, l₁, rfl, hb, -, hrun, hin⟩ := tail_of_accepts hrun h
    obtain ⟨c, rest, l₂, rfl, hc, hlast, hrun, hin⟩ := tail_of_accepts hrun hin
    obtain ⟨hmin, hscalar⟩ := hlast rfl
    have hencode := Utf8.encode_three ha hb hc hmin
    refine ⟨_, rest, l₂, by rw [hencode]; rfl, unescaped_of_ge hscalar (by omega), hrun, ?_⟩
    rw [hencode]
    simpa using hin.at
  · obtain ⟨b, rest, l₁, rfl, hb, -, hrun, hin⟩ := tail_of_accepts hrun h
    obtain ⟨c, rest, l₂, rfl, hc, -, hrun, hin⟩ := tail_of_accepts hrun hin
    obtain ⟨d, rest, l₃, rfl, hd, hlast, hrun, hin⟩ := tail_of_accepts hrun hin
    obtain ⟨hmin, hscalar⟩ := hlast rfl
    have hencode := Utf8.encode_four ha hb hc hd hmin
    refine ⟨_, rest, l₃, by rw [hencode]; rfl, unescaped_of_ge hscalar (by omega), hrun, ?_⟩
    rw [hencode]
    simpa using hin.at

/-! ### Escapes -/

/-- A byte is held, and the lexer stays where it is. -/
theorem At.tokenAppend {lexer : Lexer} {state : LexState} {text : List UInt8} {pending : ℕ}
    (h : At lexer state text pending) (byte : UInt8) :
    At (tokenAppend lexer byte) state (text ++ [byte]) pending :=
  ⟨by simp [h.state], by simp [h.utf8], by simp [h.surrogate], h.holds.append byte⟩

/-- `append_codepoint` appends the octets of the character. -/
theorem appendCodepoint_at {lexer : Lexer} {state : LexState} {text : List UInt8} {pending : ℕ}
    {code : ℕ} (h : At lexer state text pending) (hle : code ≤ 0x10FFFF) :
    ∃ lexer', appendCodepoint lexer code = some lexer' ∧
      At lexer' state (text ++ encode code) pending := by
  have htail : ∀ n : ℕ, UInt8.ofNat (0x80 ||| n &&& 0x3F) = tail n := fun n ↦ by
    rw [or_tail, tail]
  have hshift₆ : code >>> 6 = code / 64 := Nat.shiftRight_eq_div_pow _ _
  have hshift₁₂ : code >>> 12 = code / 4096 := Nat.shiftRight_eq_div_pow _ _
  have hshift₁₈ : code >>> 18 = code / 262144 := Nat.shiftRight_eq_div_pow _ _
  unfold appendCodepoint encode
  simp only [htail, hshift₆, hshift₁₂, hshift₁₈]
  by_cases h₁ : code < 0x80
  · rw [if_pos (show code ≤ 0x7F by omega), if_pos h₁]
    exact ⟨_, rfl, h.tokenAppend _⟩
  rw [if_neg (show ¬ code ≤ 0x7F by omega), if_neg h₁]
  by_cases h₂ : code < 0x800
  · have hlead : 0xC0 ||| code / 64 = 0xC0 + code / 64 :=
      shiftLeft_or (k := 5) (show code / 64 < 2 ^ 5 by omega) 6
    rw [if_pos (show code ≤ 0x7FF by omega), if_pos h₂, hlead]
    refine ⟨_, rfl, ?_⟩
    simpa using (h.tokenAppend _).tokenAppend (tail code)
  rw [if_neg (show ¬ code ≤ 0x7FF by omega), if_neg h₂]
  by_cases h₃ : code < 0x10000
  · have hlead : 0xE0 ||| code / 4096 = 0xE0 + code / 4096 :=
      shiftLeft_or (k := 4) (show code / 4096 < 2 ^ 4 by omega) 14
    rw [if_pos (show code ≤ 0xFFFF by omega), if_pos h₃, hlead]
    refine ⟨_, rfl, ?_⟩
    simpa using ((h.tokenAppend _).tokenAppend (tail (code / 64))).tokenAppend (tail code)
  · have hlead : 0xF0 ||| code / 262144 = 0xF0 + code / 262144 :=
      shiftLeft_or (k := 4) (show code / 262144 < 2 ^ 4 by omega) 15
    rw [if_neg (show ¬ code ≤ 0xFFFF by omega), if_neg h₃, if_pos hle, hlead]
    refine ⟨_, rfl, ?_⟩
    simpa using (((h.tokenAppend _).tokenAppend (tail (code / 4096))).tokenAppend
      (tail (code / 64))).tokenAppend (tail code)

/-- A backslash begins an escape. -/
theorem lexStep_backslash {lexer : Lexer} {text : List UInt8} (h : At lexer .string text 0) :
    ∃ lexer', lexStep lexer 0x5C = .ok (lexer', true, none) ∧ At lexer' .escape text 0 := by
  refine ⟨{ lexer with lexState := .escape }, ?_, ?_⟩
  · rw [lexStep_string h]
    rfl
  · exact ⟨rfl, h.utf8, h.surrogate, ⟨h.holds.token, h.holds.length, h.holds.truncated⟩⟩

/-- Inside the digits of an escape. -/
structure InUnicode (lexer : Lexer) (text : List UInt8) (pending digits value : ℕ) : Prop where
  at' : At lexer .unicode text pending
  digits : lexer.unicodeDigits = digits
  value : lexer.unicodeValue = value

/-- An escape of one letter stands for its character. -/
theorem lexStep_escape {lexer : Lexer} {text : List UInt8} {e d : UInt8}
    (h : At lexer .escape text 0) (hd : simpleEscape? e = some d) :
    ∃ lexer', lexStep lexer e = .ok (lexer', true, none) ∧
      At lexer' .string (text ++ [d]) 0 := by
  have hat : At { lexer with lexState := .string } .string text 0 :=
    ⟨rfl, h.utf8, h.surrogate, ⟨h.holds.token, h.holds.length, h.holds.truncated⟩⟩
  refine ⟨_, ?_, hat.tokenAppend d⟩
  rw [lexStep, h.state]
  show lexEscape lexer e = _
  unfold simpleEscape? at hd
  unfold lexEscape
  split_ifs at hd ⊢ <;> cases hd <;> rfl

/-- The letter `u` begins four digits. -/
theorem lexStep_escape_u {lexer : Lexer} {text : List UInt8} (h : At lexer .escape text 0) :
    ∃ lexer', lexStep lexer 0x75 = .ok (lexer', true, none) ∧ InUnicode lexer' text 0 0 0 := by
  refine ⟨{ lexer with
    lexState := .unicode, unicodeDigits := 0, unicodeValue := 0 }, ?_, ?_⟩
  · rw [lexStep, h.state]
    rfl
  · exact ⟨⟨rfl, h.utf8, h.surrogate, ⟨h.holds.token, h.holds.length, h.holds.truncated⟩⟩,
      rfl, rfl⟩

/-- Nothing else is an escape. -/
theorem escape_of_lexStep {lexer : Lexer} {text : List UInt8} {e : UInt8}
    {result : Lexer × Bool × Option TokenKind} (h : At lexer .escape text 0)
    (hok : lexStep lexer e = .ok result) : e = 0x75 ∨ ∃ d, simpleEscape? e = some d := by
  rw [lexStep, h.state] at hok
  replace hok : lexEscape lexer e = .ok result := hok
  unfold lexEscape at hok
  unfold simpleEscape?
  split_ifs at hok ⊢ <;> simp_all

theorem hexDigit_lt {b : UInt8} {v : ℕ} (h : hexDigit? b = some v) : v < 16 := by
  unfold hexDigit? at h
  simp only [UInt8.le_iff_toNat_le, UInt8.reduceToNat] at h
  split_ifs at h <;> simp only [Option.some.injEq] at h <;> omega

/-- Four digits are a code unit. -/
theorem hex4?_eq_some {a b c d : UInt8} {n : ℕ} :
    hex4? a b c d = some n ↔ ∃ x y z w, hexDigit? a = some x ∧ hexDigit? b = some y ∧
      hexDigit? c = some z ∧ hexDigit? d = some w ∧ n = ((x * 16 + y) * 16 + z) * 16 + w := by
  unfold hex4?
  constructor
  · intro h
    simp only [bind, Option.bind_eq_some_iff, pure, Option.some.injEq] at h
    obtain ⟨x, hx, y, hy, z, hz, w, hw, rfl⟩ := h
    exact ⟨x, y, z, w, hx, hy, hz, hw, rfl⟩
  · rintro ⟨x, y, z, w, hx, hy, hz, hw, rfl⟩
    simp [hx, hy, hz, hw]

/-- A digit of an escape is taken. -/
theorem lexStep_unicode {lexer : Lexer} {text : List UInt8} {pending digits value v : ℕ}
    {byte : UInt8} (h : InUnicode lexer text pending digits value)
    (hv : hexDigit? byte = some v) :
    ∃ lexer', InUnicode lexer' text pending (digits + 1) (value * 16 + v) ∧
      lexStep lexer byte =
        if digits + 1 < 4 then .ok (lexer', true, none) else lexCodeUnit lexer'
          (value * 16 + v) := by
  have hvalue : lexer.unicodeValue <<< 4 ||| v = value * 16 + v := by
    rw [h.value]
    exact shiftLeft_or (k := 4) (hexDigit_lt hv) value
  refine ⟨{ lexer with
    unicodeValue := value * 16 + v, unicodeDigits := digits + 1 }, ?_, ?_⟩
  · exact ⟨⟨h.at'.state, h.at'.utf8, h.at'.surrogate,
      ⟨h.at'.holds.token, h.at'.holds.length, h.at'.holds.truncated⟩⟩, rfl, rfl⟩
  · rw [lexStep, h.at'.state]
    show lexUnicode lexer byte = _
    have hhex : hexValue byte = some v := hv
    rw [lexUnicode, hhex]
    simp only [hvalue, h.digits, h.at'.state]

/-- Nothing else is. -/
theorem hexDigit_of_lexStep {lexer : Lexer} {text : List UInt8} {pending digits value : ℕ}
    {byte : UInt8} {result : Lexer × Bool × Option TokenKind}
    (h : InUnicode lexer text pending digits value) (hok : lexStep lexer byte = .ok result) :
    ∃ v, hexDigit? byte = some v := by
  rw [lexStep, h.at'.state] at hok
  replace hok : lexUnicode lexer byte = .ok result := hok
  rw [lexUnicode] at hok
  cases hhex : hexValue byte with
  | none => rw [hhex] at hok; cases hok
  | some v => exact ⟨v, hhex⟩

/-! ### Code units -/

def IsHigh (code : ℕ) : Prop := 0xD800 ≤ code ∧ code ≤ 0xDBFF

def IsLow (code : ℕ) : Prop := 0xDC00 ≤ code ∧ code ≤ 0xDFFF

/-- The code point of a surrogate pair. -/
def combine (hi lo : ℕ) : ℕ := 0x10000 + (hi - 0xD800) * 0x400 + (lo - 0xDC00)

/-- A surrogate pair is a character. -/
theorem isScalar_combine {hi lo : ℕ} (hhi : IsHigh hi) (hlo : IsLow lo) :
    IsScalar (combine hi lo) := by
  unfold IsHigh at hhi
  unfold IsLow at hlo
  unfold IsScalar combine
  omega

/-- **A code unit that is a character** is held in UTF-8. -/
theorem lexCodeUnit_scalar {lexer : Lexer} {text : List UInt8} {code : ℕ}
    (h : At lexer .unicode text 0) (hcode : IsScalar code) :
    ∃ lexer', lexCodeUnit lexer code = .ok (lexer', true, none) ∧
      At lexer' .string (text ++ encode code) 0 := by
  have hat : At { lexer with lexState := .string } .string text 0 :=
    ⟨rfl, h.utf8, h.surrogate, ⟨h.holds.token, h.holds.length, h.holds.truncated⟩⟩
  obtain ⟨lexer', happend, hat'⟩ := appendCodepoint_at hat hcode.1
  have hsurrogate := hcode.2
  refine ⟨lexer', ?_, hat'⟩
  rw [lexCodeUnit, if_neg (by simp [h.surrogate]), if_neg (by omega), if_neg (by omega), happend]

/-- A high surrogate waits for its low one. -/
theorem lexCodeUnit_high {lexer : Lexer} {text : List UInt8} {code : ℕ}
    (h : At lexer .unicode text 0) (hcode : IsHigh code) :
    ∃ lexer', lexCodeUnit lexer code = .ok (lexer', true, none) ∧
      At lexer' .lowBackslash text code := by
  refine ⟨{ lexer with pendingHighSurrogate := code, lexState := .lowBackslash }, ?_, ?_⟩
  · rw [lexCodeUnit, if_neg (by simp [h.surrogate]),
      if_pos (show 0xD800 ≤ code ∧ code ≤ 0xDBFF from hcode)]
  · exact ⟨rfl, h.utf8, rfl, ⟨h.holds.token, h.holds.length, h.holds.truncated⟩⟩

/-- **A pair** is held as its character. -/
theorem lexCodeUnit_low {lexer : Lexer} {text : List UInt8} {hi code : ℕ}
    (h : At lexer .unicode text hi) (hhi : IsHigh hi) (hcode : IsLow code) :
    ∃ lexer', lexCodeUnit lexer code = .ok (lexer', true, none) ∧
      At lexer' .string (text ++ encode (combine hi code)) 0 := by
  have hat : At { lexer with pendingHighSurrogate := 0, lexState := .string } .string text 0 :=
    ⟨rfl, h.utf8, rfl, ⟨h.holds.token, h.holds.length, h.holds.truncated⟩⟩
  obtain ⟨lexer', happend, hat'⟩ := appendCodepoint_at hat (isScalar_combine hhi hcode).1
  have hcombine : 0x10000 + (hi - 0xD800) <<< 10 + (code - 0xDC00) = combine hi code := by
    rw [Nat.shiftLeft_eq]
    rfl
  unfold IsHigh at hhi
  unfold IsLow at hcode
  refine ⟨lexer', ?_, hat'⟩
  rw [lexCodeUnit, if_pos (by rw [h.surrogate]; omega), if_neg (by omega), h.surrogate]
  simp only [hcombine, happend]

/-- What a code unit can be: after a high surrogate a low one, otherwise anything but that. -/
def UnitOk (pending code : ℕ) : Prop :=
  (pending = 0 ∧ (IsScalar code ∨ IsHigh code)) ∨ (pending ≠ 0 ∧ IsLow code)

/-- No other code unit is taken. -/
theorem unitOk_of_lexCodeUnit {lexer : Lexer} {text : List UInt8} {pending code : ℕ}
    {result : Lexer × Bool × Option TokenKind} (h : At lexer .unicode text pending)
    (hle : code ≤ 0xFFFF) (hok : lexCodeUnit lexer code = .ok result) : UnitOk pending code := by
  unfold lexCodeUnit at hok
  rw [h.surrogate] at hok
  unfold UnitOk IsScalar IsHigh IsLow
  by_cases hpending : pending = 0
  · rw [if_neg (by simp [hpending])] at hok
    by_cases hhigh : 0xD800 ≤ code ∧ code ≤ 0xDBFF
    · exact Or.inl ⟨hpending, Or.inr hhigh⟩
    rw [if_neg hhigh] at hok
    split at hok
    · cases hok
    · exact Or.inl ⟨hpending, Or.inl (by omega)⟩
  · rw [if_pos hpending] at hok
    split at hok
    · cases hok
    · exact Or.inr ⟨hpending, by omega⟩

/-- A low surrogate begins with a backslash. -/
theorem lexStep_lowBackslash {lexer : Lexer} {text : List UInt8} {pending : ℕ}
    (h : At lexer .lowBackslash text pending) :
    ∃ lexer', lexStep lexer 0x5C = .ok (lexer', true, none) ∧ At lexer' .lowU text pending := by
  refine ⟨{ lexer with lexState := .lowU }, ?_, ?_⟩
  · rw [lexStep, h.state]
    rfl
  · exact ⟨rfl, h.utf8, h.surrogate, ⟨h.holds.token, h.holds.length, h.holds.truncated⟩⟩

/-- And goes on with a `u`. -/
theorem lexStep_lowU {lexer : Lexer} {text : List UInt8} {pending : ℕ}
    (h : At lexer .lowU text pending) :
    ∃ lexer', lexStep lexer 0x75 = .ok (lexer', true, none) ∧
      InUnicode lexer' text pending 0 0 := by
  refine ⟨{ lexer with
    lexState := .unicode, unicodeDigits := 0, unicodeValue := 0 }, ?_, ?_⟩
  · rw [lexStep, h.state]
    rfl
  · exact ⟨⟨rfl, h.utf8, h.surrogate, ⟨h.holds.token, h.holds.length, h.holds.truncated⟩⟩,
      rfl, rfl⟩

/-- A code unit has 16 bits. -/
theorem hex4_le {a b c d : UInt8} {code : ℕ} (h : hex4? a b c d = some code) :
    code ≤ 0xFFFF := by
  obtain ⟨x, y, z, w, hx, hy, hz, hw, rfl⟩ := hex4?_eq_some.1 h
  have := hexDigit_lt hx
  have := hexDigit_lt hy
  have := hexDigit_lt hz
  have := hexDigit_lt hw
  omega

/-- The four digits of an escape come to one call for its code unit. -/
theorem silent_hex4 {lexer : Lexer} {text : List UInt8} {pending code : ℕ} {a b c d : UInt8}
    (h : InUnicode lexer text pending 0 0) (hcode : hex4? a b c d = some code) :
    ∃ lexer₄, At lexer₄ .unicode text pending ∧
      ∀ lexer', lexCodeUnit lexer₄ code = .ok (lexer', true, none) →
        Silent lexer [a, b, c, d] lexer' := by
  obtain ⟨x, y, z, w, hx, hy, hz, hw, rfl⟩ := hex4?_eq_some.1 hcode
  obtain ⟨l₁, hin₁, hs₁⟩ := lexStep_unicode h hx
  obtain ⟨l₂, hin₂, hs₂⟩ := lexStep_unicode hin₁ hy
  obtain ⟨l₃, hin₃, hs₃⟩ := lexStep_unicode hin₂ hz
  obtain ⟨l₄, hin₄, hs₄⟩ := lexStep_unicode hin₃ hw
  simp only [Nat.zero_mul, Nat.zero_add] at hs₄
  refine ⟨l₄, hin₄.at', fun lexer' hunit ↦ ?_⟩
  refine .cons (hs₁.trans (if_pos (by omega))) (.cons (hs₂.trans (if_pos (by omega)))
    (.cons (hs₃.trans (if_pos (by omega))) (.single ?_)))
  rw [hs₄, if_neg (by omega), hunit]

/-- A digit of an escape in an accepted body. -/
theorem hexDigit_of_accepts {lexer : Lexer} {g : Grammar} {body text : List UInt8}
    {pending digits value : ℕ} (hrun : Machine.Accepts ⟨lexer, g⟩ body)
    (h : InUnicode lexer text pending digits value) (hdigits : digits + 1 < 4) :
    ∃ byte rest v lexer', body = byte :: rest ∧ hexDigit? byte = some v ∧
      Machine.Accepts ⟨lexer', g⟩ rest ∧
      InUnicode lexer' text pending (digits + 1) (value * 16 + v) := by
  obtain ⟨byte, rest, lexer₁, token, rfl, hstep, hrest⟩ := exists_cons_of_accepts hrun
    (by rw [h.at'.state]; decide) (by rw [h.at'.state]; decide)
  obtain ⟨v, hv⟩ := hexDigit_of_lexStep h hstep
  obtain ⟨lexer', hin, hstep'⟩ := lexStep_unicode h hv
  rw [hstep, if_pos hdigits] at hstep'
  obtain ⟨rfl, -, rfl⟩ : lexer₁ = lexer' ∧ true = true ∧ token = none := by simpa using hstep'
  exact ⟨byte, rest, v, lexer₁, rfl, hv, hrest rfl, hin⟩

/-- The digits of an escape in an accepted body, and the code unit they make. -/
theorem hex4_of_accepts {lexer : Lexer} {g : Grammar} {body text : List UInt8} {pending : ℕ}
    (hrun : Machine.Accepts ⟨lexer, g⟩ body) (h : InUnicode lexer text pending 0 0) :
    ∃ a b c d rest code lexer₄ result, body = a :: b :: c :: d :: rest ∧
      hex4? a b c d = some code ∧ At lexer₄ .unicode text pending ∧
      lexCodeUnit lexer₄ code = .ok result ∧
      (∀ lexer', result = (lexer', true, none) → Machine.Accepts ⟨lexer', g⟩ rest) := by
  obtain ⟨a, rest, x, l₁, rfl, hx, hrun, hin₁⟩ := hexDigit_of_accepts hrun h (by omega)
  obtain ⟨b, rest, y, l₂, rfl, hy, hrun, hin₂⟩ := hexDigit_of_accepts hrun hin₁ (by omega)
  obtain ⟨c, rest, z, l₃, rfl, hz, hrun, hin₃⟩ := hexDigit_of_accepts hrun hin₂ (by omega)
  obtain ⟨d, rest, l₄, token, rfl, hstep, hrest⟩ := exists_cons_of_accepts hrun
    (by rw [hin₃.at'.state]; decide) (by rw [hin₃.at'.state]; decide)
  obtain ⟨w, hw⟩ := hexDigit_of_lexStep hin₃ hstep
  obtain ⟨lexer₄, hin₄, hunit⟩ := lexStep_unicode hin₃ hw
  rw [hstep, if_neg (by omega)] at hunit
  refine ⟨a, b, c, d, rest, _, lexer₄, (l₄, true, token), rfl,
    hex4?_eq_some.2 ⟨x, y, z, w, hx, hy, hz, hw, rfl⟩,
    hin₄.at', ?_, ?_⟩
  · simp only [Nat.zero_mul, Nat.zero_add] at hunit
    exact hunit.symm
  · rintro lexer' heq
    obtain ⟨rfl, -, rfl⟩ : l₄ = lexer' ∧ true = true ∧ token = none := by simpa using heq
    exact hrest rfl

/-! ### Whole strings -/

/-- **The characters of a string are read**, and the text held is the text they denote. -/
theorem silent_of_chars {raw t : List UInt8} (hchars : Chars raw t) :
    ∀ {lexer : Lexer} {text : List UInt8}, At lexer .string text 0 →
      ∃ lexer', Silent lexer raw lexer' ∧ At lexer' .string (text ++ t) 0 := by
  induction hchars with
  | nil =>
    intro lexer text h
    exact ⟨lexer, .nil _, by simpa using h⟩
  | @unescaped raw t c hctl hquote hslash _ ih =>
    intro lexer text h
    have hchar : Unescaped c.toNat := by
      refine ⟨Utf8.isScalar_toNat c, hctl, fun he ↦ hquote ?_, fun he ↦ hslash ?_⟩
      · exact Char.toNat_inj.1 he
      · exact Char.toNat_inj.1 he
    obtain ⟨l₁, hs₁, hat₁⟩ := silent_encode h hchar
    obtain ⟨l₂, hs₂, hat₂⟩ := ih hat₁
    rw [Utf8.utf8EncodeChar_eq]
    exact ⟨l₂, hs₁.append hs₂, by rw [← List.append_assoc]; exact hat₂⟩
  | @escape raw t e d hescape _ ih =>
    intro lexer text h
    obtain ⟨l₁, hs₁, hat₁⟩ := lexStep_backslash h
    obtain ⟨l₂, hs₂, hat₂⟩ := lexStep_escape hat₁ hescape
    obtain ⟨l₃, hs₃, hat₃⟩ := ih hat₂
    exact ⟨l₃, .cons hs₁ (.cons hs₂ hs₃), by simpa using hat₃⟩
  | @unicode raw t a b c d ch hcode _ ih =>
    intro lexer text h
    obtain ⟨l₁, hs₁, hat₁⟩ := lexStep_backslash h
    obtain ⟨l₂, hs₂, hin₂⟩ := lexStep_escape_u hat₁
    obtain ⟨l₃, hat₃, hs₃⟩ := silent_hex4 hin₂ hcode
    obtain ⟨l₄, hunit, hat₄⟩ := lexCodeUnit_scalar hat₃ (Utf8.isScalar_toNat ch)
    obtain ⟨l₅, hs₅, hat₅⟩ := ih hat₄
    rw [Utf8.utf8EncodeChar_eq]
    exact ⟨l₅, .cons hs₁ (.cons hs₂ ((hs₃ l₄ hunit).append hs₅)), by simpa using hat₅⟩
  | @surrogates raw t a b c d a' b' c' d' hi lo ch hhex lhex hhi hlo hch _ ih =>
    intro lexer text h
    obtain ⟨l₁, hs₁, hat₁⟩ := lexStep_backslash h
    obtain ⟨l₂, hs₂, hin₂⟩ := lexStep_escape_u hat₁
    obtain ⟨l₃, hat₃, hs₃⟩ := silent_hex4 hin₂ hhex
    obtain ⟨l₄, hunit, hat₄⟩ := lexCodeUnit_high hat₃ hhi
    obtain ⟨l₅, hs₅, hat₅⟩ := lexStep_lowBackslash hat₄
    obtain ⟨l₆, hs₆, hin₆⟩ := lexStep_lowU hat₅
    obtain ⟨l₇, hat₇, hs₇⟩ := silent_hex4 hin₆ lhex
    obtain ⟨l₈, hunit', hat₈⟩ := lexCodeUnit_low hat₇ hhi hlo
    -- The two halves give the character of the grammar.
    have hcombine : combine hi lo = ch.toNat := hch.symm
    rw [hcombine] at hat₈
    obtain ⟨l₉, hs₉, hat₉⟩ := ih hat₈
    rw [Utf8.utf8EncodeChar_eq]
    refine ⟨l₉, .cons hs₁ (.cons hs₂ ((hs₃ l₄ hunit).append ?_)), by simpa using hat₉⟩
    exact .cons hs₅ (.cons hs₆ ((hs₇ l₈ hunit').append hs₉))

/-- What an accepted body says after a backslash: an escape, with the string going on after it. -/
theorem escape_of_accepts {lexer : Lexer} {g : Grammar} {rest text : List UInt8}
    (hrun : Machine.Accepts ⟨lexer, g⟩ rest) (h : At lexer .escape text 0) :
    ∃ esc u rest' lexer', rest = esc ++ rest' ∧ Machine.Accepts ⟨lexer', g⟩ rest' ∧
      At lexer' .string (text ++ u) 0 ∧
      ∀ {raw t : List UInt8}, Chars raw t → Chars (0x5C :: esc ++ raw) (u ++ t) := by
  obtain ⟨e, rest, l₁, token, rfl, hstep, hrest⟩ := exists_cons_of_accepts hrun
    (by rw [h.state]; decide) (by rw [h.state]; decide)
  rcases escape_of_lexStep h hstep with rfl | ⟨d, hd⟩
  · -- a code unit, which may be the first of a pair
    obtain ⟨l₂, hstep₂, hin₂⟩ := lexStep_escape_u h
    obtain ⟨rfl, rfl⟩ := lexStep_unique hstep hstep₂
    obtain ⟨a, b, c, d, rest, code, l₃, result, rfl, hcode, hat₃, hunit, hrest₃⟩ :=
      hex4_of_accepts (hrest rfl) hin₂
    rcases unitOk_of_lexCodeUnit hat₃ (hex4_le hcode) hunit with
      ⟨-, hscalar | hhigh⟩ | ⟨hpending, -⟩
    · obtain ⟨l₄, hunit', hat₄⟩ := lexCodeUnit_scalar hat₃ hscalar
      obtain rfl := Except.ok.inj (hunit.symm.trans hunit')
      refine ⟨[0x75, a, b, c, d], encode code, rest, l₄, rfl, hrest₃ l₄ rfl, hat₄, ?_⟩
      intro raw t hchars
      rw [← Utf8.utf8EncodeChar_ofNat hscalar]
      exact .unicode (Char.ofNat code) (by rw [Utf8.toNat_ofNat hscalar]; exact hcode) hchars
    · obtain ⟨l₄, hunit', hat₄⟩ := lexCodeUnit_high hat₃ hhigh
      obtain rfl := Except.ok.inj (hunit.symm.trans hunit')
      obtain ⟨b₅, rest, l₅, token, rfl, hstep₅, hrest₅⟩ := exists_cons_of_accepts (hrest₃ l₄ rfl)
        (by rw [hat₄.state]; decide) (by rw [hat₄.state]; decide)
      -- After a high surrogate only an escape of a low one is read.
      have hb₅ : b₅ = 0x5C := by
        by_contra hne
        rw [lexStep, hat₄.state] at hstep₅
        simp [hne] at hstep₅
      subst hb₅
      obtain ⟨l₅', hstep₅', hat₅⟩ := lexStep_lowBackslash hat₄
      obtain ⟨rfl, rfl⟩ := lexStep_unique hstep₅ hstep₅'
      obtain ⟨b₆, rest, l₆, token, rfl, hstep₆, hrest₆⟩ := exists_cons_of_accepts (hrest₅ rfl)
        (by rw [hat₅.state]; decide) (by rw [hat₅.state]; decide)
      have hb₆ : b₆ = 0x75 := by
        by_contra hne
        rw [lexStep, hat₅.state] at hstep₆
        simp [hne] at hstep₆
      subst hb₆
      obtain ⟨l₆', hstep₆', hin₆⟩ := lexStep_lowU hat₅
      obtain ⟨rfl, rfl⟩ := lexStep_unique hstep₆ hstep₆'
      obtain ⟨a', b', c', d', rest, lo, l₇, result, rfl, hlo, hat₇, hunit₇, hrest₇⟩ :=
        hex4_of_accepts (hrest₆ rfl) hin₆
      rcases unitOk_of_lexCodeUnit hat₇ (hex4_le hlo) hunit₇ with ⟨hzero, -⟩ | ⟨-, hlow⟩
      · rw [hzero] at hhigh
        exact absurd hhigh.1 (by omega)
      obtain ⟨l₈, hunit₈, hat₈⟩ := lexCodeUnit_low hat₇ hhigh hlow
      obtain rfl := Except.ok.inj (hunit₇.symm.trans hunit₈)
      have hscalar := isScalar_combine hhigh hlow
      refine ⟨[0x75, a, b, c, d, 0x5C, 0x75, a', b', c', d'], encode (combine code lo), rest, l₈,
        rfl, hrest₇ l₈ rfl, hat₈, ?_⟩
      intro raw t hchars
      rw [← Utf8.utf8EncodeChar_ofNat hscalar]
      exact .surrogates (Char.ofNat (combine code lo)) hcode hlo hhigh hlow
        (Utf8.toNat_ofNat hscalar) hchars
    · exact absurd rfl hpending
  · obtain ⟨l₂, hstep₂, hat₂⟩ := lexStep_escape h hd
    obtain ⟨rfl, rfl⟩ := lexStep_unique hstep hstep₂
    exact ⟨[e], [d], rest, l₁, rfl, hrest rfl, hat₂, fun hchars ↦ .escape hd hchars⟩

/-- **Only the characters of a string are read**: an accepted body goes on with them, up to the
closing quote. -/
theorem chars_of_accepts {g : Grammar} :
    ∀ {lexer : Lexer} {text : List UInt8} (body : List UInt8), At lexer .string text 0 →
      Machine.Accepts ⟨lexer, g⟩ body →
      ∃ raw t rest, body = raw ++ 0x22 :: rest ∧ Chars raw t := by
  intro lexer text body
  induction hn : body.length using Nat.strongRecOn generalizing lexer text body with
  | _ n ih =>
    intro h hrun
    obtain ⟨byte, rest, l₁, token, rfl, hstep, hrest⟩ := exists_cons_of_accepts hrun
      (by rw [h.state]; decide) (by rw [h.state]; decide)
    -- The quote, an escape, an ASCII character, or the first byte of a longer one.
    rcases start_of_lexStep h hstep with rfl | rfl | ⟨hctl, hascii, hquote, hslash⟩ | hlead
    · exact ⟨[], [], rest, rfl, .nil⟩
    · obtain ⟨l₂, hstep₂, hat₂⟩ := lexStep_backslash h
      obtain ⟨rfl, rfl⟩ := lexStep_unique hstep hstep₂
      obtain ⟨esc, u, rest', l₃, rfl, hrun₃, hat₃, hchars⟩ := escape_of_accepts (hrest rfl) hat₂
      obtain ⟨raw, t, rest'', rfl, ht⟩ := ih rest'.length
        (by rw [← hn]; simp only [List.length_cons, List.length_append]; omega) rest' rfl hat₃ hrun₃
      exact ⟨0x5C :: esc ++ raw, u ++ t, rest'', by simp, hchars ht⟩
    · obtain ⟨l₂, hstep₂, hat₂⟩ := lexStep_ascii h hctl hascii hquote hslash
      obtain ⟨rfl, rfl⟩ := lexStep_unique hstep hstep₂
      obtain ⟨raw, t, rest', rfl, ht⟩ := ih rest.length (by rw [← hn]; simp) rest rfl hat₂
        (hrest rfl)
      have hscalar : IsScalar byte.toNat := ⟨by omega, by omega⟩
      have hencode : String.utf8EncodeChar (Char.ofNat byte.toNat) = [byte] := by
        rw [Utf8.utf8EncodeChar_ofNat hscalar, encode, if_pos hascii, UInt8.ofNat_toNat]
      have hnat := Utf8.toNat_ofNat hscalar
      have hone : Chars ([byte] ++ raw) ([byte] ++ t) := by
        rw [← hencode]
        refine .unescaped _ (by rw [hnat]; exact hctl) (fun he ↦ hquote ?_) (fun he ↦ hslash ?_) ht
        · exact UInt8.toNat_inj.1 (hnat.symm.trans (by rw [he]; rfl))
        · exact UInt8.toNat_inj.1 (hnat.symm.trans (by rw [he]; rfl))
      exact ⟨byte :: raw, byte :: t, rest', rfl, hone⟩
    · obtain ⟨remaining, marker, minimum, hlead⟩ := hlead
      obtain ⟨l₂, hstep₂, hin₂⟩ := lexStep_lead h hlead
      obtain ⟨rfl, rfl⟩ := lexStep_unique hstep hstep₂
      obtain ⟨c, rest', l₃, heq, ⟨hscalar, hctl, hquote, hslash⟩, hrun₃, hat₃⟩ :=
        encode_of_accepts (hrest rfl) hlead hin₂
      have hencode := Utf8.utf8EncodeChar_ofNat hscalar
      -- At least one byte is read, so the induction on the length goes on.
      have hpos : 0 < (encode c).length := by
        rw [← hencode, String.length_utf8EncodeChar]
        exact Char.utf8Size_pos _
      have hlen := congrArg List.length heq
      rw [List.length_append, hn] at hlen
      obtain ⟨raw, t, rest'', rfl, ht⟩ := ih rest'.length (by omega) rest' rfl hat₃ hrun₃
      have hnat := Utf8.toNat_ofNat hscalar
      refine ⟨encode c ++ raw, encode c ++ t, rest'', by simpa using heq, ?_⟩
      rw [← hencode]
      refine .unescaped _ (by rw [hnat]; exact hctl) (fun he ↦ hquote ?_) (fun he ↦ hslash ?_) ht
      · exact hnat.symm.trans (by rw [he]; rfl)
      · exact hnat.symm.trans (by rw [he]; rfl)

end VibeUsage
