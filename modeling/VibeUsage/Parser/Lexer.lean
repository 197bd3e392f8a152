import VibeUsage.Parser.Numbers
import VibeUsage.Parser.Strings

/-!
# The lexer reads tokens

`Grammar.step` is what the container stack does with one token of the grammar, and `run_idle_iff`
says that running the machine over a body is stepping the stack over the tokens that the body
spells: the machine accepts exactly when the body is spelled by tokens the stack accepts.

A token is read in one of two ways. A structural character, a literal or a string ends with its own
last byte. A number ends with the byte after it, or with the body; either way the stack has seen the
number when that byte is looked at, which is why a number needs the text after it to be delimited.
-/

namespace VibeUsage

open Rfc8259 (Token TokenText Spelled Ws Delimited IsNumber IsString NumberByte)

/-! ### Tokens and what the stack sees of them -/

def kindOf : Token → TokenKind
  | .leftObject => .leftObject
  | .rightObject => .rightObject
  | .leftArray => .leftArray
  | .rightArray => .rightArray
  | .colon => .colon
  | .comma => .comma
  | .string _ => .string
  | .number _ => .number
  | .true => .true
  | .false => .false
  | .null => .null

/-- The text a token carries. -/
def payload : Token → List UInt8
  | .string text => text
  | .number text => text
  | _ => []

/-- A lexer whose token buffer holds `text`. -/
def lexerHolding (text : List UInt8) : Lexer :=
  { lexerInit with
    token := text.take (parserTokenBytes - 1)
    tokenTotalLength := text.length
    tokenTruncated := decide (parserTokenBytes ≤ text.length) }

@[simp] theorem lexerHolding_token (text : List UInt8) :
    (lexerHolding text).token = text.take (parserTokenBytes - 1) := rfl

@[simp] theorem lexerHolding_length (text : List UInt8) :
    (lexerHolding text).tokenTotalLength = text.length := rfl

@[simp] theorem lexerHolding_truncated {text : List UInt8} :
    (lexerHolding text).tokenTruncated = true ↔ parserTokenBytes ≤ text.length :=
  decide_eq_true_iff

/-- What the container stack does with a token. -/
def Grammar.step (g : Grammar) (token : Token) : Except VibeError Grammar :=
  emitToken (lexerHolding (payload token)) g (kindOf token)

/-- What `vibe_usage_parser_finish` asks of the stack. -/
def finishGrammar (g : Grammar) : Except VibeError Grammar :=
  if ¬ g.rootStarted ∨ ¬ g.rootComplete ∨ g.frames.length ≠ 0 ∨ ¬ g.seenBuckets ∨
      ¬ g.seenHasAnyData then .error .invalidJson
  else .ok { g with candidate.hasAnyData := g.rootHasAnyData }

def Grammar.runTokens (g : Grammar) (tokens : List Token) : Except VibeError Grammar := do
  let g ← tokens.foldlM Grammar.step g
  finishGrammar g

/-- The two buffers look the same to every check. -/
def Agree (lexer lexer' : Lexer) : Prop :=
  lexer.token = lexer'.token ∧ lexer.tokenTotalLength = lexer'.tokenTotalLength ∧
    lexer.tokenTruncated = lexer'.tokenTruncated

/-- Two lexers that hold the same text look the same. -/
theorem Lexer.Holds.agree {lexer lexer' : Lexer} {text : List UInt8} (h : lexer.Holds text)
    (h' : lexer'.Holds text) : Agree lexer lexer' :=
  ⟨h.token.trans h'.token.symm, h.length.trans h'.length.symm,
    h.truncated.trans h'.truncated.symm⟩

/-- The buffer that is filled with a text holds it. -/
theorem holds_lexerHolding (text : List UInt8) : (lexerHolding text).Holds text :=
  ⟨rfl, rfl, rfl⟩

/-- The stack reads the token buffer only. -/
theorem emitToken_congr {lexer lexer' : Lexer} (h : Agree lexer lexer') (g : Grammar)
    (kind : TokenKind) : emitToken lexer g kind = emitToken lexer' g kind := by
  obtain ⟨htoken, hlength, htruncated⟩ := h
  have hnul : tokenHasEmbeddedNul lexer = tokenHasEmbeddedNul lexer' := by
    rw [tokenHasEmbeddedNul, tokenHasEmbeddedNul, htoken]
  have hu64 : parseU64Token lexer = parseU64Token lexer' := by
    rw [parseU64Token, parseU64Token, htoken, htruncated]
  have hbucket : handleBucketScalar lexer = handleBucketScalar lexer' := by
    funext g frame kind
    simp only [handleBucketScalar, hnul, hu64, hlength, htruncated, htoken]
  have hscalar : handleScalar lexer = handleScalar lexer' := by
    funext g frame kind
    simp only [handleScalar, hbucket]
  have hkey : readKey lexer = readKey lexer' := by
    funext g frame rest kind
    simp only [readKey, hnul, hlength, htruncated, htoken]
  have hvalue : readValue lexer = readValue lexer' := by
    funext g frame rest state kind
    simp only [readValue, consumeValue, hscalar]
  simp only [emitToken, handleToken, handleFrameToken, hkey, hvalue, htoken, htruncated]

/-- A token that carries no text does not look at the buffer. -/
theorem emitToken_irrelevant {kind : TokenKind} (hstring : kind ≠ .string)
    (hnumber : kind ≠ .number) (lexer lexer' : Lexer) (g : Grammar) :
    emitToken lexer g kind = emitToken lexer' g kind := by
  have hscalar : ∀ g frame, handleScalar lexer g frame kind = handleScalar lexer' g frame kind := by
    intro g frame
    unfold handleScalar
    cases frame.role with
    | bucket => simp [handleBucketScalar, hstring, hnumber]
    | _ => rfl
  have hkey : ∀ g frame rest, readKey lexer g frame rest kind = readKey lexer' g frame rest kind :=
    fun g frame rest ↦ by simp [readKey, hstring]
  have hvalue : ∀ g frame rest state,
      readValue lexer g frame rest state kind = readValue lexer' g frame rest state kind :=
    fun g frame rest state ↦ by simp only [readValue, consumeValue, hscalar]
  simp only [emitToken, hnumber, false_and, if_false, handleToken, handleFrameToken, hkey, hvalue]

/-- **A token is its kind and its text**: the stack sees nothing else of the lexer. -/
theorem step_of_holds {lexer : Lexer} {token : Token} (h : lexer.Holds (payload token))
    (g : Grammar) : emitToken lexer g (kindOf token) = g.step token :=
  emitToken_congr (h.agree (holds_lexerHolding _)) g _

/-- A token without a text is its kind. -/
theorem step_of_bare {token : Token} (hstring : kindOf token ≠ .string)
    (hnumber : kindOf token ≠ .number) (lexer : Lexer) (g : Grammar) :
    emitToken lexer g (kindOf token) = g.step token :=
  emitToken_irrelevant hstring hnumber _ _ g

/-! ### Emitting a token -/

/-- Between tokens. -/
structure Idle (lexer : Lexer) : Prop where
  state : lexer.lexState = .idle
  surrogate : lexer.pendingHighSurrogate = 0

/-- A byte that completes a token. -/
theorem consume_of_emit {lexer lexer' : Lexer} {byte : UInt8} {kind : TokenKind} (g : Grammar)
    (h : lexStep lexer byte = .ok (lexer', true, some kind)) :
    Machine.consume ⟨lexer, g⟩ byte =
      (emitToken lexer' g kind >>= fun g' ↦ .ok ⟨lexer', g'⟩) := by
  have hbyte : lexByte ⟨lexer, g⟩ byte =
      (emitToken lexer' g kind >>= fun g' ↦ .ok (⟨lexer', g'⟩, true)) := by
    rw [lexByte]
    show (lexStep lexer byte >>= _) = _
    rw [h]
    rfl
  rw [Machine.consume, hbyte]
  cases emitToken lexer' g kind <;> rfl

/-- A token ended by its own last byte. -/
theorem run_of_emit {lexer lexer' : Lexer} {byte : UInt8} {kind : TokenKind}
    (h : lexStep lexer byte = .ok (lexer', true, some kind)) (g : Grammar)
    (body : List UInt8) :
    Machine.run ⟨lexer, g⟩ (byte :: body) =
      (emitToken lexer' g kind >>= fun g' ↦ Machine.run ⟨lexer', g'⟩ body) := by
  rw [run_cons, consume_of_emit g h]
  cases emitToken lexer' g kind <;> rfl

/-- Between tokens a byte begins one, or is space. -/
theorem lexStep_idle {lexer : Lexer} (h : Idle lexer) (byte : UInt8) :
    lexStep lexer byte = lexIdle lexer byte := by
  rw [lexStep, h.state]

/-- The structural characters. -/
def structural? (byte : UInt8) : Option Token :=
  if byte = 0x7B then some .leftObject
  else if byte = 0x7D then some .rightObject
  else if byte = 0x5B then some .leftArray
  else if byte = 0x5D then some .rightArray
  else if byte = 0x3A then some .colon
  else if byte = 0x2C then some .comma
  else none

/-- A structural character is a token of its own. -/
theorem structural?_eq_some {byte : UInt8} {token : Token} (h : structural? byte = some token) :
    TokenText token [byte] ∧ kindOf token ≠ .string ∧ kindOf token ≠ .number ∧
      (∀ n, token ≠ .number n) ∧
      ∀ lexer, lexIdle lexer byte = .ok (lexer, true, some (kindOf token)) := by
  unfold structural? at h
  split_ifs at h <;> cases h <;> subst_vars <;>
    exact ⟨rfl, by decide, by decide, fun _ ↦ by simp, fun _ ↦ rfl⟩

/-- It is stepped over. -/
theorem run_structural {lexer : Lexer} {byte : UInt8} {token : Token} (hidle : Idle lexer)
    (h : structural? byte = some token) (g : Grammar) (body : List UInt8) :
    Machine.run ⟨lexer, g⟩ (byte :: body) =
      (g.step token >>= fun g' ↦ Machine.run ⟨lexer, g'⟩ body) := by
  obtain ⟨-, hstring, hnumber, -, hlex⟩ := structural?_eq_some h
  rw [run_of_emit ((lexStep_idle hidle byte).trans (hlex lexer)), step_of_bare hstring hnumber]

/-- A space is skipped. -/
theorem run_space {lexer : Lexer} {byte : UInt8} (hidle : Idle lexer) (h : isSpace byte = true)
    (g : Grammar) (body : List UInt8) :
    Machine.run ⟨lexer, g⟩ (byte :: body) = Machine.run ⟨lexer, g⟩ body := by
  have hstep : lexStep lexer byte = .ok (lexer, true, none) := by
    rw [lexStep_idle hidle, lexIdle, if_pos h]
  exact (Silent.single hstep).run g body

/-- The four spaces of the format. -/
theorem isSpace_iff {byte : UInt8} :
    isSpace byte = true ↔ byte = 0x20 ∨ byte = 0x09 ∨ byte = 0x0A ∨ byte = 0x0D := by
  simp only [isSpace, Bool.or_eq_true, decide_eq_true_eq]
  tauto

/-- **Space** is skipped, however much there is. -/
theorem run_ws {lexer : Lexer} {w : List UInt8} (hidle : Idle lexer) (hw : Ws w) (g : Grammar)
    (body : List UInt8) :
    Machine.run ⟨lexer, g⟩ (w ++ body) = Machine.run ⟨lexer, g⟩ body := by
  induction w with
  | nil => rfl
  | cons b w ih =>
    rw [List.cons_append, run_space hidle (isSpace_iff.2 (hw b List.mem_cons_self))]
    exact ih fun c hc ↦ hw c (List.mem_cons_of_mem _ hc)

/-! ### Literals -/

/-- Inside a literal, with `position` of its bytes read. -/
structure InLiteral (lexer : Lexer) (kind : TokenKind) (position : ℕ) : Prop where
  state : lexer.lexState = .literal
  kind : lexer.literalKind = kind
  position : lexer.literalPosition = position
  surrogate : lexer.pendingHighSurrogate = 0

/-- A literal goes on with its next letter, and ends with its last. -/
theorem lexStep_literal {lexer : Lexer} {kind : TokenKind} {position : ℕ} {byte : UInt8}
    (h : InLiteral lexer kind position) (hbyte : (literalText kind)[position]? = some byte) :
    if position + 1 = (literalText kind).length then
      ∃ lexer', lexStep lexer byte = .ok (lexer', true, some kind) ∧ Idle lexer'
    else ∃ lexer', lexStep lexer byte = .ok (lexer', true, none) ∧
      InLiteral lexer' kind (position + 1) := by
  have hstep : lexStep lexer byte = lexLiteral lexer byte := by rw [lexStep, h.state]
  rw [lexLiteral, h.kind, h.position, if_neg (by simp [hbyte])] at hstep
  split
  next hlast =>
    rw [if_pos hlast] at hstep
    exact ⟨_, hstep, rfl, h.surrogate⟩
  next hlast =>
    rw [if_neg hlast] at hstep
    exact ⟨_, hstep, h.state, rfl, rfl, h.surrogate⟩

/-- It goes on with nothing else. -/
theorem literal_of_lexStep {lexer : Lexer} {kind : TokenKind} {position : ℕ} {byte : UInt8}
    {result : Lexer × Bool × Option TokenKind} (h : InLiteral lexer kind position)
    (hok : lexStep lexer byte = .ok result) : (literalText kind)[position]? = some byte := by
  have hstep : lexStep lexer byte = lexLiteral lexer byte := by rw [lexStep, h.state]
  rw [hstep, lexLiteral, h.kind, h.position] at hok
  by_contra hne
  rw [if_pos hne] at hok
  cases hok

/-- The rest of a literal, `t`, is read and emitted. -/
theorem run_literal {kind : TokenKind} {t : List UInt8} :
    ∀ {lexer : Lexer} {position : ℕ}, InLiteral lexer kind position →
      (literalText kind).drop position = t → t ≠ [] →
      ∀ (g : Grammar) (body : List UInt8), ∃ lexer', Idle lexer' ∧
        Machine.run ⟨lexer, g⟩ (t ++ body) =
          (emitToken lexer' g kind >>= fun g' ↦ Machine.run ⟨lexer', g'⟩ body) := by
  induction t with
  | nil =>
    intro _ _ _ _ hne
    exact absurd rfl hne
  | cons byte t ih =>
    intro lexer position h hdrop _ g body
    have hbyte : (literalText kind)[position]? = some byte := by
      rw [← List.head?_drop, hdrop]
      rfl
    have hlength := congrArg List.length hdrop
    rw [List.length_drop, List.length_cons] at hlength
    have hrest : (literalText kind).drop (position + 1) = t := by
      rw [← List.tail_drop, hdrop]
      rfl
    have hstep := lexStep_literal h hbyte
    split at hstep
    next hlast =>
      obtain ⟨lexer', hstep, hidle⟩ := hstep
      obtain rfl : t = [] := List.length_eq_zero_iff.1 (by omega)
      exact ⟨lexer', hidle, run_of_emit hstep g body⟩
    next hlast =>
      obtain ⟨lexer₁, hstep, hin⟩ := hstep
      obtain ⟨lexer', hidle, hrun⟩ := ih hin hrest
        (fun hnil ↦ by rw [hnil] at hlength; simp at hlength; omega) g body
      refine ⟨lexer', hidle, ?_⟩
      rw [← hrun]
      exact (Silent.single hstep).run g (t ++ body)

/-- An accepted body finishes the literal it is in. -/
theorem literal_of_accepts {kind : TokenKind} {g : Grammar} {t : List UInt8} :
    ∀ {lexer : Lexer} {position : ℕ} {body : List UInt8}, InLiteral lexer kind position →
      (literalText kind).drop position = t → t ≠ [] → Machine.Accepts ⟨lexer, g⟩ body →
      ∃ rest, body = t ++ rest := by
  induction t with
  | nil =>
    intro _ _ _ _ _ hne
    exact absurd rfl hne
  | cons b t ih =>
    intro lexer position body h hdrop _ hrun
    obtain ⟨byte, rest, lexer₁, token, rfl, hok, hrest⟩ := exists_cons_of_accepts hrun
      (by rw [h.state]; decide) (by rw [h.state]; decide)
    have hbyte := literal_of_lexStep h hok
    have hb : b = byte := by
      rw [← List.head?_drop, hdrop] at hbyte
      exact Option.some.inj hbyte
    subst hb
    have hnext : (literalText kind).drop (position + 1) = t := by
      rw [← List.tail_drop, hdrop]
      rfl
    have hlength := congrArg List.length hdrop
    rw [List.length_drop, List.length_cons] at hlength
    have hstep := lexStep_literal h hbyte
    split at hstep
    next hlast =>
      obtain rfl : t = [] := List.length_eq_zero_iff.1 (by omega)
      exact ⟨rest, rfl⟩
    next hlast =>
      obtain ⟨lexer₂, hstep, hin⟩ := hstep
      obtain ⟨rfl, rfl⟩ := lexStep_unique hok hstep
      obtain ⟨rest', rfl⟩ := ih hin hnext
        (fun hnil ↦ by rw [hnil] at hlength; simp at hlength; omega) (hrest rfl)
      exact ⟨rest', rfl⟩

/-- The literals, by their first byte. -/
def literal? (byte : UInt8) : Option Token :=
  if byte = 0x74 then some .true
  else if byte = 0x66 then some .false
  else if byte = 0x6E then some .null
  else none

/-- A literal is known by its first letter. -/
theorem literal?_eq_some {byte : UInt8} {token : Token} (h : literal? byte = some token) :
    kindOf token ≠ .string ∧ kindOf token ≠ .number ∧ (∀ n, token ≠ .number n) ∧
      TokenText token (literalText (kindOf token)) ∧
      literalText (kindOf token) = byte :: (literalText (kindOf token)).drop 1 ∧
      (literalText (kindOf token)).drop 1 ≠ [] ∧
      ∀ lexer, Idle lexer → ∃ lexer', lexStep lexer byte = .ok (lexer', true, none) ∧
        InLiteral lexer' (kindOf token) 1 := by
  unfold literal? at h
  split_ifs at h <;> cases h <;> subst_vars <;>
    refine ⟨by decide, by decide, fun _ ↦ by simp, rfl, rfl, by decide, fun lexer hidle ↦
      ⟨_, (lexStep_idle hidle _).trans rfl, rfl, rfl, rfl, hidle.surrogate⟩⟩

/-- **A literal** is stepped over as one token. -/
theorem run_literal_token {lexer : Lexer} {byte : UInt8} {token : Token} (hidle : Idle lexer)
    (h : literal? byte = some token) (g : Grammar) (body : List UInt8) :
    ∃ lexer', Idle lexer' ∧
      Machine.run ⟨lexer, g⟩ (literalText (kindOf token) ++ body) =
        (g.step token >>= fun g' ↦ Machine.run ⟨lexer', g'⟩ body) := by
  obtain ⟨hstring, hnumber, -, -, htext, hne, hstart⟩ := literal?_eq_some h
  obtain ⟨lexer₁, hstep, hin⟩ := hstart lexer hidle
  obtain ⟨lexer', hidle', hrun⟩ := run_literal hin rfl hne g body
  refine ⟨lexer', hidle', ?_⟩
  rw [← step_of_bare hstring hnumber lexer' g, ← hrun, htext]
  exact (Silent.single hstep).run g _

/-! ### Strings -/

/-- A quote begins a string. -/
theorem lexStep_quote {lexer : Lexer} (hidle : Idle lexer) :
    ∃ lexer', lexStep lexer 0x22 = .ok (lexer', true, none) ∧ At lexer' .string [] 0 :=
  ⟨_, (lexStep_idle hidle _).trans rfl, rfl, rfl, hidle.surrogate, rfl, rfl, rfl⟩

/-- **A string** is stepped over as one token, with the text that its characters denote. -/
theorem run_string {lexer : Lexer} {raw text : List UInt8} (hidle : Idle lexer)
    (h : Rfc8259.Chars raw text) (g : Grammar) (body : List UInt8) :
    ∃ lexer', Idle lexer' ∧
      Machine.run ⟨lexer, g⟩ (0x22 :: (raw ++ 0x22 :: body)) =
        (g.step (.string text) >>= fun g' ↦ Machine.run ⟨lexer', g'⟩ body) := by
  obtain ⟨l₁, hs₁, hat₁⟩ := lexStep_quote hidle
  obtain ⟨l₂, hs₂, hat₂⟩ := silent_of_chars h hat₁
  rw [List.nil_append] at hat₂
  have hclose : lexStep l₂ 0x22 = .ok ({ l₂ with lexState := .idle }, true, some .string) :=
    (lexStep_string hat₂ _).trans rfl
  refine ⟨{ l₂ with lexState := .idle }, ⟨rfl, hat₂.surrogate⟩, ?_⟩
  have hholds : Lexer.Holds { l₂ with lexState := .idle } (payload (.string text)) :=
    ⟨hat₂.holds.token, hat₂.holds.length, hat₂.holds.truncated⟩
  rw [← step_of_holds hholds]
  calc Machine.run ⟨lexer, g⟩ (0x22 :: (raw ++ 0x22 :: body))
      = Machine.run ⟨l₁, g⟩ (raw ++ 0x22 :: body) := (Silent.single hs₁).run g _
    _ = Machine.run ⟨l₂, g⟩ (0x22 :: body) := hs₂.run g _
    _ = _ := run_of_emit hclose g body

/-! ### Numbers -/

/-- A number goes on with any byte that may stand in one. -/
theorem lexStep_numberByte {lexer : Lexer} {text : List UInt8} {byte : UInt8}
    (h : At lexer .number text 0) (hbyte : numberByte byte = true) :
    ∃ lexer', lexStep lexer byte = .ok (lexer', true, none) ∧
      At lexer' .number (text ++ [byte]) 0 := by
  refine ⟨_, ?_, h.tokenAppend byte⟩
  rw [lexStep, h.state]
  exact if_pos hbyte

/-- So it goes on to the first byte that may not. -/
theorem silent_numberBytes {ds : List UInt8} :
    ∀ {lexer : Lexer} {text : List UInt8}, At lexer .number text 0 →
      (∀ b ∈ ds, numberByte b = true) →
      ∃ lexer', Silent lexer ds lexer' ∧ At lexer' .number (text ++ ds) 0 := by
  induction ds with
  | nil =>
    intro lexer text h _
    exact ⟨lexer, .nil _, by simpa using h⟩
  | cons b ds ih =>
    intro lexer text h hds
    obtain ⟨l₁, hs₁, hat₁⟩ := lexStep_numberByte h (hds b List.mem_cons_self)
    obtain ⟨l₂, hs₂, hat₂⟩ := ih hat₁ fun c hc ↦ hds c (List.mem_cons_of_mem _ hc)
    exact ⟨l₂, .cons hs₁ hs₂, by simpa using hat₂⟩

/-- **The byte after a number, or the end of the body, emits it.** -/
theorem run_delimited {lexer : Lexer} {text body : List UInt8} (h : At lexer .number text 0)
    (hd : Delimited body) (g : Grammar) :
    Machine.run ⟨lexer, g⟩ body =
      (emitToken { lexer with lexState := .idle } g .number >>= fun g' ↦
        Machine.run ⟨{ lexer with lexState := .idle }, g'⟩ body) := by
  cases body with
  | nil =>
    have hnil : ∀ m : Machine, m.run [] = finishMachine m := fun _ ↦ rfl
    rw [hnil, finishMachine, finishToken, h.state]
    show (emitToken { lexer with lexState := .idle } g .number >>= _) >>= _ = _
    cases emitToken { lexer with lexState := .idle } g .number <;> rfl
  | cons byte body =>
    have hbyte : ¬ numberByte byte = true := fun hn ↦
      Rfc8259.delimited_cons.1 hd (numberByte_iff.1 hn)
    have hstep : lexStep lexer byte =
        .ok ({ lexer with lexState := .idle }, false, some .number) := by
      rw [lexStep, h.state]
      exact if_neg hbyte
    have hlex : lexByte ⟨lexer, g⟩ byte =
        (emitToken { lexer with lexState := .idle } g .number >>= fun g' ↦
          .ok (⟨{ lexer with lexState := .idle }, g'⟩, false)) := by
      rw [lexByte]
      show (lexStep lexer byte >>= _) = _
      rw [hstep]
      rfl
    rw [run_cons, Machine.consume, hlex]
    cases emitToken { lexer with lexState := .idle } g .number with
    | error e => rfl
    | ok g' =>
      -- from the idle state the byte is consumed at once
      have hagain : Machine.consume ⟨{ lexer with lexState := .idle }, g'⟩ byte =
          (lexByte ⟨{ lexer with lexState := .idle }, g'⟩ byte >>= fun r ↦ .ok r.1) := by
        rw [Machine.consume]
        rcases hr : lexByte ⟨{ lexer with lexState := .idle }, g'⟩ byte with e | ⟨m, consumed⟩
        · rfl
        · obtain ⟨token, hlexed⟩ := lexByte_ok hr
          have hnotnumber : Lexer.lexState { lexer with lexState := .idle } ≠ .number := by simp
          have hconsumed := consumed_lexStep hnotnumber byte
          rw [hlexed] at hconsumed
          obtain rfl : consumed = true := hconsumed
          rfl
      show _ = Machine.run _ (byte :: body)
      rw [run_cons, hagain]
      rfl

/-- A sign or a digit begins a number. -/
theorem lexStep_numberStart {lexer : Lexer} {byte : UInt8} (hidle : Idle lexer)
    (hbyte : byte = 0x2D ∨ isDigitByte byte = true) :
    ∃ lexer', lexStep lexer byte = .ok (lexer', true, none) ∧
      At lexer' .number [byte] 0 := by
  have hat : At { tokenReset lexer with lexState := .number } .number [] 0 :=
    ⟨rfl, rfl, hidle.surrogate, rfl, rfl, rfl⟩
  refine ⟨_, ?_, hat.tokenAppend byte⟩
  rw [lexStep_idle hidle]
  have hrange : byte.toNat = 0x2D ∨ 0x30 ≤ byte.toNat ∧ byte.toNat ≤ 0x39 := by
    rcases hbyte with rfl | hdigit
    · exact Or.inl rfl
    · simpa [isDigitByte, UInt8.le_iff_toNat_le] using Or.inr (a := byte.toNat = 0x2D) hdigit
  have hne : ∀ c : UInt8, c.toNat < 0x2D ∨ 0x39 < c.toNat → byte ≠ c := by
    rintro c hc rfl
    omega
  have hspace : ¬ isSpace byte = true := by
    rw [isSpace_iff]
    rintro (h | h | h | h) <;> exact hne _ (by decide) h
  have hcolon : byte ≠ 0x3A := hne _ (by decide)
  have hcomma : byte ≠ 0x2C := hne _ (by decide)
  unfold lexIdle
  rw [if_neg hspace, if_neg (hne _ (by decide)), if_neg (hne _ (by decide)),
    if_neg (hne _ (by decide)), if_neg (hne _ (by decide)), if_neg hcolon, if_neg hcomma,
    if_neg (hne _ (by decide)), if_neg, if_pos hbyte]
  · simp only [tokenAppend, tokenReset]
    rfl
  · rintro (h | h | h) <;> exact hne _ (by decide) h

/-! ### One token of a body -/

/-- **A token is read**, and the stack has taken it when the rest of the body is read. -/
theorem run_token {lexer : Lexer} {token : Token} {b body : List UInt8} (hidle : Idle lexer)
    (hb : TokenText token b) (hd : ∀ n, token = .number n → Delimited body) (g : Grammar) :
    ∃ lexer', Idle lexer' ∧ Machine.run ⟨lexer, g⟩ (b ++ body) =
      (g.step token >>= fun g' ↦ Machine.run ⟨lexer', g'⟩ body) := by
  cases token with
  | leftObject => obtain rfl := hb; exact ⟨lexer, hidle, run_structural hidle rfl g body⟩
  | rightObject => obtain rfl := hb; exact ⟨lexer, hidle, run_structural hidle rfl g body⟩
  | leftArray => obtain rfl := hb; exact ⟨lexer, hidle, run_structural hidle rfl g body⟩
  | rightArray => obtain rfl := hb; exact ⟨lexer, hidle, run_structural hidle rfl g body⟩
  | colon => obtain rfl := hb; exact ⟨lexer, hidle, run_structural hidle rfl g body⟩
  | comma => obtain rfl := hb; exact ⟨lexer, hidle, run_structural hidle rfl g body⟩
  | string text =>
    obtain ⟨raw, hchars, rfl⟩ := hb
    obtain ⟨lexer', hidle', hrun⟩ := run_string hidle hchars g body
    exact ⟨lexer', hidle', by simpa using hrun⟩
  | number n =>
    obtain ⟨rfl, hnumber⟩ := hb
    obtain ⟨c, ds, rfl, hc, hds⟩ := exists_cons_of_isNumber hnumber
    obtain ⟨l₁, hs₁, hat₁⟩ := lexStep_numberStart hidle hc
    obtain ⟨l₂, hs₂, hat₂⟩ := silent_numberBytes hat₁ hds
    have hholds : Lexer.Holds { l₂ with lexState := .idle } (payload (.number (c :: ds))) :=
      ⟨hat₂.holds.token, hat₂.holds.length, hat₂.holds.truncated⟩
    refine ⟨{ l₂ with lexState := .idle }, ⟨rfl, hat₂.surrogate⟩, ?_⟩
    rw [← step_of_holds hholds]
    calc Machine.run ⟨lexer, g⟩ (c :: ds ++ body)
        = Machine.run ⟨l₁, g⟩ (ds ++ body) := (Silent.single hs₁).run g _
      _ = Machine.run ⟨l₂, g⟩ body := hs₂.run g _
      _ = _ := run_delimited hat₂ (hd _ rfl) g
  | true => obtain rfl := hb; exact run_literal_token hidle (show literal? 0x74 = _ from rfl) g body
  | false =>
    obtain rfl := hb
    exact run_literal_token hidle (show literal? 0x66 = _ from rfl) g body
  | null => obtain rfl := hb; exact run_literal_token hidle (show literal? 0x6E = _ from rfl) g body

/-- A number the stack takes is a number of the grammar, of at most 32 bytes. -/
theorem isNumber_of_emit {lexer : Lexer} {g g' : Grammar} {n : List UInt8} (h : lexer.Holds n)
    (hok : emitToken lexer g .number = .ok g') : n.length ≤ 32 ∧ IsNumber n := by
  rw [emitToken] at hok
  split at hok
  · cases hok
  next hgood =>
    simp only [true_and, not_or, not_not] at hgood
    obtain ⟨htruncated, hlength, hvalid⟩ := hgood
    rw [h.truncated, decide_eq_true_eq] at htruncated
    unfold parserTokenBytes at htruncated
    have hwhole : n.take (parserTokenBytes - 1) = n :=
      List.take_of_length_le (by simp only [parserTokenBytes]; omega)
    rw [h.token, hwhole] at hlength hvalid
    exact ⟨by omega, jsonNumberValid_iff.1 hvalid⟩

/-- What follows a run of number bytes does not go on with one. -/
theorem delimited_dropWhile (body : List UInt8) : Delimited (body.dropWhile numberByte) := by
  intro b hb hnumber
  have hhead := List.head?_dropWhile_not numberByte body
  rw [Option.mem_def.1 hb] at hhead
  exact absurd (numberByte_iff.2 hnumber) (by simpa using hhead)

/-- **Only tokens are read**: what an accepted body shows after white space starts a token. -/
theorem token_of_accepts {lexer : Lexer} {g : Grammar} {byte : UInt8} {rest : List UInt8}
    (hidle : Idle lexer) (hspace : ¬ isSpace byte = true)
    (hrun : Machine.Accepts ⟨lexer, g⟩ (byte :: rest)) :
    ∃ token b body, byte :: rest = b ++ body ∧ TokenText token b ∧
      ∀ n, token = .number n → Delimited body := by
  have hlex : ∃ result, lexIdle lexer byte = .ok result := by
    obtain ⟨m', hrun⟩ := hrun
    rw [run_cons] at hrun
    rcases hs : lexStep lexer byte with e | result
    · rw [Machine.consume, lexByte, hs] at hrun
      cases hrun
    · exact ⟨result, (lexStep_idle hidle byte).symm.trans hs⟩
  obtain ⟨result, hlex⟩ := hlex
  -- The first byte tells what the token is: punctuation, a literal, a string or a number.
  cases hstruct : structural? byte with
  | some token =>
    obtain ⟨htext, -, -, hnotnumber, -⟩ := structural?_eq_some hstruct
    exact ⟨token, [byte], rest, rfl, htext, fun n hn ↦ absurd hn (hnotnumber n)⟩
  | none =>
  cases hliteral : literal? byte with
  | some token =>
    obtain ⟨-, -, hnotnumber, htext, hcons, hne, hstart⟩ := literal?_eq_some hliteral
    obtain ⟨l₁, hstep, hin⟩ := hstart lexer hidle
    obtain ⟨m', hrun⟩ := hrun
    rw [run_cons, consume_of_silent g hstep] at hrun
    obtain ⟨rest', rfl⟩ := literal_of_accepts hin rfl hne ⟨m', hrun⟩
    exact ⟨token, literalText (kindOf token), rest', by rw [hcons]; rfl, htext,
      fun n hn ↦ absurd hn (hnotnumber n)⟩
  | none =>
  by_cases hquote : byte = 0x22
  · subst hquote
    obtain ⟨l₁, hstep, hat⟩ := lexStep_quote hidle
    obtain ⟨m', hrun⟩ := hrun
    rw [run_cons, consume_of_silent g hstep] at hrun
    obtain ⟨raw, t, rest', rfl, hchars⟩ := chars_of_accepts rest hat ⟨m', hrun⟩
    exact ⟨.string t, 0x22 :: raw ++ [0x22], rest', by simp, ⟨raw, hchars, rfl⟩,
      fun n hn ↦ by cases hn⟩
  · -- what is left of the idle state's bytes starts a number
    have hnumber : byte = 0x2D ∨ isDigitByte byte = true := by
      unfold structural? at hstruct
      unfold literal? at hliteral
      unfold lexIdle at hlex
      grind
    obtain ⟨l₁, hs₁, hat₁⟩ := lexStep_numberStart hidle hnumber
    have hall : ∀ b ∈ rest.takeWhile numberByte, numberByte b = true := fun b hb ↦ by
      simpa using List.all_eq_true.1 List.all_takeWhile b hb
    obtain ⟨l₂, hs₂, hat₂⟩ := silent_numberBytes hat₁ hall
    obtain ⟨m', hrun⟩ := hrun
    -- A number goes on as long as its bytes may stand in one; the byte behind it ends it.
    have hsplit : byte :: rest =
        byte :: rest.takeWhile numberByte ++ rest.dropWhile numberByte := by simp
    rw [hsplit, show byte :: rest.takeWhile numberByte ++ rest.dropWhile numberByte =
      [byte] ++ (rest.takeWhile numberByte ++ rest.dropWhile numberByte) from rfl,
      (Silent.single hs₁).run g, hs₂.run g, run_delimited hat₂ (delimited_dropWhile rest)] at hrun
    cases hemit : emitToken { l₂ with lexState := .idle } g .number with
    | error e => rw [hemit] at hrun; cases hrun
    | ok g' =>
      have hholds : Lexer.Holds { l₂ with lexState := .idle }
          (byte :: rest.takeWhile numberByte) :=
        ⟨hat₂.holds.token, hat₂.holds.length, hat₂.holds.truncated⟩
      exact ⟨.number (byte :: rest.takeWhile numberByte), _, _, hsplit,
        ⟨rfl, (isNumber_of_emit hholds hemit).2⟩, fun _ _ ↦ delimited_dropWhile rest⟩

/-! ### Whole bodies -/

/-- At the end of the body the stack must be done. -/
theorem run_nil {lexer : Lexer} (hidle : Idle lexer) (g : Grammar) :
    (Machine.run ⟨lexer, g⟩ []).map (·.grammar) = finishGrammar g := by
  have hnil : Machine.run ⟨lexer, g⟩ [] = finishMachine ⟨lexer, g⟩ := rfl
  rw [hnil]
  unfold finishMachine finishToken finishGrammar
  simp only [hidle.state, bind, Except.bind]
  split <;> rfl

/-- **Tokens are enough.** A body spelled by tokens comes to what the tokens come to. -/
theorem run_of_spelled {tokens : List Token} {body : List UInt8} (h : Spelled tokens body) :
    ∀ {lexer : Lexer}, Idle lexer → ∀ g : Grammar,
      (Machine.run ⟨lexer, g⟩ body).map (·.grammar) = g.runTokens tokens := by
  induction h with
  | @nil w hw =>
    intro lexer hidle g
    have hrun := run_ws hidle hw g []
    rw [List.append_nil] at hrun
    rw [hrun, run_nil hidle]
    rfl
  | @cons token tokens w b r hw hb hd _ ih =>
    intro lexer hidle g
    obtain ⟨lexer', hidle', hrun⟩ := run_token hidle hb hd g
    rw [List.append_assoc, run_ws hidle hw, hrun, Grammar.runTokens, List.foldlM_cons]
    cases g.step token with
    | error e => rfl
    | ok g' => exact ih hidle' g'

/-- **Tokens are all there is.** An accepted body is spelled by tokens. -/
theorem spelled_of_accepts {lexer : Lexer} {g : Grammar} {body : List UInt8}
    (hidle : Idle lexer) (hrun : Machine.Accepts ⟨lexer, g⟩ body) :
    ∃ tokens, Spelled tokens body := by
  induction hn : body.length using Nat.strongRecOn generalizing lexer g body with
  | _ n ih =>
    cases body with
    | nil => exact ⟨[], .nil Ws.nil⟩
    | cons byte rest =>
      by_cases hspace : isSpace byte = true
      · obtain ⟨m', hrun⟩ := hrun
        rw [run_space hidle hspace] at hrun
        obtain ⟨tokens, hspelled⟩ := ih rest.length (by rw [← hn]; simp) hidle ⟨m', hrun⟩ rfl
        refine ⟨tokens, hspelled.ws_append (w := [byte]) ?_⟩
        intro b hb
        obtain rfl : b = byte := by simpa using hb
        exact isSpace_iff.1 hspace
      · obtain ⟨token, b, body, heq, hb, hd⟩ := token_of_accepts hidle hspace hrun
        obtain ⟨lexer', hidle', hrun'⟩ := run_token hidle hb hd g
        obtain ⟨m', hrun⟩ := hrun
        rw [heq, hrun'] at hrun
        cases hstep : g.step token with
        | error e => rw [hstep] at hrun; cases hrun
        | ok g' =>
          rw [hstep] at hrun
          have hpos := Rfc8259.length_pos_of_tokenText hb
          have hlength := congrArg List.length heq
          rw [List.length_append, hn] at hlength
          obtain ⟨tokens, hspelled⟩ := ih body.length (by omega) hidle' ⟨m', hrun⟩ rfl
          refine ⟨token :: tokens, ?_⟩
          rw [heq]
          simpa using Spelled.cons (w := []) Ws.nil hb hd hspelled

/-- **The lexer is the token view.** The machine ends in a stack exactly when the body is spelled by
tokens that lead the stack there. -/
theorem run_idle_iff {lexer : Lexer} {g g' : Grammar} {body : List UInt8} (hidle : Idle lexer) :
    (Machine.run ⟨lexer, g⟩ body).map (·.grammar) = .ok g' ↔
      ∃ tokens, Spelled tokens body ∧ g.runTokens tokens = .ok g' := by
  constructor
  · intro h
    have haccepts : Machine.Accepts ⟨lexer, g⟩ body := by
      cases hrun : Machine.run ⟨lexer, g⟩ body with
      | error e => rw [hrun] at h; cases h
      | ok m => exact ⟨m, hrun⟩
    obtain ⟨tokens, hspelled⟩ := spelled_of_accepts hidle haccepts
    exact ⟨tokens, hspelled, (run_of_spelled hspelled hidle g).symm.trans h⟩
  · rintro ⟨tokens, hspelled, h⟩
    exact (run_of_spelled hspelled hidle g).trans h

end VibeUsage
