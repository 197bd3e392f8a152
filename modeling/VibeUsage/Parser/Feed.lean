import VibeUsage.Parser.Model

/-!
# Feeding the parser piece by piece

`lex_byte` may complete a number without consuming the byte that ended it, so the loop of
`vibe_usage_parser_feed` looks at such a byte twice. The byte is looked at from the idle state the
second time, and the idle state consumes every byte: two rounds a byte are enough
(`feedLoop_of_le`).

`Machine.consume` is both rounds of a byte. Feeding is then a fold of it over the bytes
(`feedLoop_spec`), and a fold does not see where a list was cut (`outcome_feedPieces`).
-/

namespace VibeUsage

/-- Feeds the pieces in order, up to the first error. -/
def feedPieces (parser : Parser) : List (List UInt8) → Parser
  | [] => parser
  | piece :: pieces =>
    let parser := vibeUsageParserFeed parser piece
    if parser.error.isSome then parser else feedPieces parser pieces

/-- One byte, looked at again when it only ended a number. -/
def Machine.consume (m : Machine) (byte : UInt8) : Except VibeError Machine := do
  let (m, consumed) ← lexByte m byte
  if consumed then return m
  let (m, _) ← lexByte m byte
  return m

/-! ### A byte is looked at twice at most -/

/-- A result that, unless it is an error, used its byte up. -/
def Consumed : LexResult → Prop
  | .ok (_, consumed, _) => consumed = true
  | .error _ => True

/-- A byte that is used up. -/
theorem consumed_ok (lexer : Lexer) (token : Option TokenKind) :
    Consumed (.ok (lexer, true, token)) := rfl

/-- An error stops the loop. -/
theorem consumed_error (error : VibeError) : Consumed (.error error) := trivial

/-- Either way. -/
theorem consumed_ite {p : Prop} [Decidable p] {r r' : LexResult} (h : Consumed r)
    (h' : Consumed r') : Consumed (if p then r else r') := by
  split
  · exact h
  · exact h'

/-- Between tokens every byte is used up. -/
theorem consumed_lexIdle (lexer : Lexer) (byte : UInt8) : Consumed (lexIdle lexer byte) := by
  unfold lexIdle
  dsimp only
  repeat' first | exact consumed_ok _ _ | exact consumed_error _ | apply consumed_ite

/-- Inside a character too. -/
theorem consumed_lexContinuation (lexer : Lexer) (byte : UInt8) :
    Consumed (lexContinuation lexer byte) := by
  unfold lexContinuation
  dsimp only
  repeat' first | exact consumed_ok _ _ | exact consumed_error _ | apply consumed_ite

/-- Inside a string too. -/
theorem consumed_lexStringStart (lexer : Lexer) (byte : UInt8) :
    Consumed (lexStringStart lexer byte) := by
  unfold lexStringStart
  repeat' first | exact consumed_ok _ _ | exact consumed_error _ | apply consumed_ite

/-- After a backslash too. -/
theorem consumed_lexEscape (lexer : Lexer) (byte : UInt8) :
    Consumed (lexEscape lexer byte) := by
  unfold lexEscape
  dsimp only
  repeat' first | exact consumed_ok _ _ | exact consumed_error _ | apply consumed_ite

/-- A code unit is looked at when its last digit has been used up. -/
theorem consumed_lexCodeUnit (lexer : Lexer) (code : ℕ) :
    Consumed (lexCodeUnit lexer code) := by
  unfold lexCodeUnit
  refine consumed_ite (consumed_ite (consumed_error _) ?_)
    (consumed_ite (consumed_ok _ _) (consumed_ite (consumed_error _) ?_))
  · dsimp only
    split
    · exact consumed_ok _ _
    · exact consumed_error _
  · split
    · exact consumed_ok _ _
    · exact consumed_error _

/-- A digit of an escape is used up. -/
theorem consumed_lexUnicode (lexer : Lexer) (byte : UInt8) :
    Consumed (lexUnicode lexer byte) := by
  unfold lexUnicode
  cases hexValue byte with
  | none => exact consumed_error _
  | some value => exact consumed_ite (consumed_ok _ _) (consumed_lexCodeUnit _ _)

/-- Inside a literal too. -/
theorem consumed_lexLiteral (lexer : Lexer) (byte : UInt8) :
    Consumed (lexLiteral lexer byte) :=
  consumed_ite (consumed_error _) (consumed_ite (consumed_ok _ _) (consumed_ok _ _))

/-- **Only a number** leaves the byte after it. -/
theorem consumed_lexStep {lexer : Lexer} (h : lexer.lexState ≠ .number) (byte : UInt8) :
    Consumed (lexStep lexer byte) := by
  unfold lexStep
  cases hstate : lexer.lexState with
  | idle => exact consumed_lexIdle _ _
  | string => exact consumed_ite (consumed_lexContinuation _ _) (consumed_lexStringStart _ _)
  | escape => exact consumed_lexEscape _ _
  | unicode => exact consumed_lexUnicode _ _
  | number => exact absurd hstate h
  | literal => exact consumed_lexLiteral _ _
  | lowBackslash => exact consumed_ite (consumed_error _) (consumed_ok _ _)
  | lowU => exact consumed_ite (consumed_error _) (consumed_ok _ _)

/-- **The only branch that keeps its byte** is the end of a number. -/
theorem lexStep_not_consumed {lexer lexer' : Lexer} {byte : UInt8} {token : Option TokenKind}
    (h : lexStep lexer byte = .ok (lexer', false, token)) :
    lexer.lexState = .number ∧ lexer'.lexState = .idle := by
  have hnumber : lexer.lexState = .number := by
    by_contra hne
    have hconsumed := consumed_lexStep hne byte
    rw [h] at hconsumed
    cases hconsumed
  refine ⟨hnumber, ?_⟩
  simp only [lexStep, hnumber] at h
  split at h
  · cases h
  · cases h
    rfl

/-- A byte goes to the lexer, and a token that it completes to the stack. -/
theorem lexByte_ok {m m' : Machine} {byte : UInt8} {consumed : Bool}
    (h : lexByte m byte = .ok (m', consumed)) :
    ∃ token, lexStep m.lexer byte = .ok (m'.lexer, consumed, token) := by
  unfold lexByte at h
  rcases hs : lexStep m.lexer byte with e | ⟨lexer, c, token⟩
  · rw [hs] at h
    cases h
  · rw [hs] at h
    cases token with
    | none => cases h; exact ⟨none, rfl⟩
    | some token =>
      rcases he : emitToken lexer m.grammar token with e | grammar
      · simp [he, bind, Except.bind] at h
      · simp only [he, bind, Except.bind, pure, Except.pure, Except.ok.injEq,
          Prod.mk.injEq] at h
        obtain ⟨rfl, rfl⟩ := h
        exact ⟨some token, rfl⟩

/-- **The second look consumes.** -/
theorem lexByte_again {m m' m'' : Machine} {byte : UInt8} {consumed : Bool}
    (h : lexByte m byte = .ok (m', false)) (h' : lexByte m' byte = .ok (m'', consumed)) :
    consumed = true := by
  obtain ⟨token, hs⟩ := lexByte_ok h
  obtain ⟨token', hs'⟩ := lexByte_ok h'
  obtain ⟨-, hidle⟩ := lexStep_not_consumed hs
  cases consumed with
  | true => rfl
  | false =>
    -- a byte kept twice would have ended a number twice
    have hnumber := (lexStep_not_consumed hs').1
    rw [hidle] at hnumber
    cases hnumber

/-! ### The loop is a fold -/

/-- What the loop leaves behind, given what folding the bytes gives: on an error only the code is
determined. -/
def Parser.Ran (parser : Parser) (p : Parser) : Except VibeError Machine → Prop
  | .ok machine => p = { parser with machine }
  | .error error => p.error = some error

/-- **The loop computes the fold**, whenever it is given two rounds a byte. -/
theorem feedLoop_spec (data : List UInt8) :
    ∀ (fuel : ℕ) (parser : Parser), 2 * data.length ≤ fuel →
      ∃ p, feedLoop fuel parser data = some p ∧
        parser.Ran p (data.foldlM Machine.consume parser.machine) := by
  induction data with
  | nil =>
    intro fuel parser _
    exact ⟨parser, by cases fuel <;> rfl, rfl⟩
  | cons byte data ih =>
    intro fuel parser hfuel
    obtain ⟨fuel, rfl⟩ : ∃ k, fuel = k + 2 :=
      ⟨fuel - 2, by simp only [List.length_cons] at hfuel; omega⟩
    have hle : 2 * data.length ≤ fuel := by simp only [List.length_cons] at hfuel; omega
    rw [List.foldlM_cons, Machine.consume]
    rcases h : lexByte parser.machine byte with e | ⟨m, consumed⟩
    · exact ⟨{ parser with error := some e }, by simp [feedLoop, h], rfl⟩
    cases consumed with
    | true =>
      obtain ⟨p, hp, hran⟩ := ih (fuel + 1) { parser with machine := m } (by omega)
      refine ⟨p, ?_, hran⟩
      rw [feedLoop, h]
      exact hp
    | false =>
      rcases h' : lexByte m byte with e | ⟨m', consumed'⟩
      · refine ⟨{ parser with machine := m, error := some e }, ?_, ?_⟩
        · simp [feedLoop, h, h']
        · simp [bind, Except.bind, h', Parser.Ran]
      -- A byte that ends a number is looked at again, and then consumed.
      · obtain rfl := lexByte_again h h'
        obtain ⟨p, hp, hran⟩ := ih fuel { parser with machine := m' } hle
        refine ⟨p, ?_, ?_⟩
        · simp [feedLoop, h, h', hp]
        · simp only [bind, Except.bind, h', Bool.false_eq_true, if_false]
          exact hran

/-- More fuel does not change a loop that has ended. -/
theorem feedLoop_add {fuel : ℕ} {parser p : Parser} {data : List UInt8}
    (h : feedLoop fuel parser data = some p) (k : ℕ) :
    feedLoop (fuel + k) parser data = some p := by
  fun_induction feedLoop fuel parser data with
  | case1 fuel parser => cases hk : fuel + k <;> exact h
  | case2 => cases h
  | case3 fuel parser byte data error he =>
    rw [Nat.succ_add, feedLoop, he]
    exact h
  | case4 fuel parser byte data machine consumed hok ih =>
    rw [Nat.succ_add, feedLoop, hok]
    exact ih h

/-- **Two rounds a byte end the loop**, from every state of the parser. -/
theorem feedLoop_of_le (parser : Parser) (data : List UInt8) :
    ∃ p, ∀ fuel, 2 * data.length ≤ fuel → feedLoop fuel parser data = some p := by
  obtain ⟨p, hp, -⟩ := feedLoop_spec data (2 * data.length) parser (Nat.le_refl _)
  refine ⟨p, fun fuel hfuel ↦ ?_⟩
  obtain ⟨k, rfl⟩ := Nat.exists_eq_add_of_le hfuel
  exact feedLoop_add hp k

/-- After an error nothing is fed. -/
theorem feed_of_error {parser : Parser} (h : parser.error.isSome) (data : List UInt8) :
    vibeUsageParserFeed parser data = parser := by
  rw [vibeUsageParserFeed, if_pos h]

/-- **A piece is a fold** over its bytes, with the count of the bytes kept. -/
theorem feed_spec {parser : Parser} {data : List UInt8} (herr : parser.error = none)
    (hle : parser.bodyBytes + data.length ≤ parser.maxBodyBytes) :
    { parser with bodyBytes := parser.bodyBytes + data.length }.Ran
      (vibeUsageParserFeed parser data) (data.foldlM Machine.consume parser.machine) := by
  obtain ⟨p, hp, hran⟩ := feedLoop_spec data (2 * data.length)
    { parser with bodyBytes := parser.bodyBytes + data.length } (Nat.le_refl _)
  have hlimit : ¬ (parser.bodyBytes > parser.maxBodyBytes ∨
      data.length > parser.maxBodyBytes - parser.bodyBytes) := by omega
  rw [vibeUsageParserFeed, if_neg (by simp [herr]), if_neg hlimit]
  simpa [hp] using hran

/-- The pieces are a fold over all of their bytes. -/
theorem feedPieces_spec (pieces : List (List UInt8)) :
    ∀ parser : Parser, parser.error = none →
      parser.bodyBytes + pieces.flatten.length ≤ parser.maxBodyBytes →
      { parser with bodyBytes := parser.bodyBytes + pieces.flatten.length }.Ran
        (feedPieces parser pieces) (pieces.flatten.foldlM Machine.consume parser.machine) := by
  induction pieces with
  | nil =>
    intro parser _ _
    rfl
  | cons piece pieces ih =>
    intro parser herr hle
    simp only [List.flatten_cons, List.length_append] at hle ⊢
    rw [List.foldlM_append, feedPieces]
    have hfed := feed_spec herr (show parser.bodyBytes + piece.length ≤ _ by omega)
    rcases hrun : piece.foldlM Machine.consume parser.machine with e | machine
    · rw [hrun] at hfed
      have herror : (vibeUsageParserFeed parser piece).error = some e := hfed
      simp only [herror, Option.isSome_some, if_true]
      exact herror
    · rw [hrun] at hfed
      have hnext : vibeUsageParserFeed parser piece =
          { parser with bodyBytes := parser.bodyBytes + piece.length, machine } := hfed
      have hrest := ih (vibeUsageParserFeed parser piece) (by rw [hnext]; exact herr)
        (by rw [hnext]; show parser.bodyBytes + piece.length + _ ≤ parser.maxBodyBytes; omega)
      rw [hnext] at hrest ⊢
      rw [if_neg (by simp [herr]), ← Nat.add_assoc]
      exact hrest

/-! ### Where the body was cut does not matter -/

/-- The result code, or the candidate of a success. -/
def Parser.outcome (parser : Parser) : Except VibeError DayCandidate :=
  match parser.error with
  | some error => .error error
  | none => .ok parser.candidate

/-- What a whole body comes to, byte by byte. -/
def Machine.run (m : Machine) (body : List UInt8) : Except VibeError Machine := do
  let m ← body.foldlM Machine.consume m
  finishMachine m

/-- An error is the end of it. -/
theorem outcome_finish_of_error {parser : Parser} {error : VibeError}
    (h : parser.error = some error) : (vibeUsageParserFinish parser).outcome = .error error := by
  rw [vibeUsageParserFinish, if_pos (by simp [h]), Parser.outcome, h]

/-- **The pieces of a body come to what the body comes to.** -/
theorem outcome_feedPieces {parser : Parser} (herr : parser.error = none)
    {pieces : List (List UInt8)}
    (hle : parser.bodyBytes + pieces.flatten.length ≤ parser.maxBodyBytes) :
    (vibeUsageParserFinish (feedPieces parser pieces)).outcome =
      (parser.machine.run pieces.flatten).map (·.grammar.candidate) := by
  have hfed := feedPieces_spec pieces parser herr hle
  rw [Machine.run]
  rcases hrun : pieces.flatten.foldlM Machine.consume parser.machine with e | machine
  · rw [hrun] at hfed
    exact outcome_finish_of_error hfed
  · rw [hrun] at hfed
    have hnext : feedPieces parser pieces =
        { parser with bodyBytes := parser.bodyBytes + pieces.flatten.length, machine } := hfed
    rw [hnext, vibeUsageParserFinish, if_neg (by simp [herr])]
    show (match finishMachine machine with | .ok _ => _ | .error _ => _ : Parser).outcome =
      (finishMachine machine).map _
    cases hfin : finishMachine machine with
    | ok machine => simp [Parser.outcome, Parser.candidate, herr, Except.map]
    | error e => simp [Parser.outcome, Except.map]

/-- After an error no piece is fed. -/
theorem feedPieces_of_error {parser : Parser} {error : VibeError}
    (h : parser.error = some error) (pieces : List (List UInt8)) :
    feedPieces parser pieces = parser := by
  have hsome : parser.error.isSome := by rw [h]; rfl
  cases pieces with
  | nil => rfl
  | cons piece pieces => simp only [feedPieces, feed_of_error hsome, hsome, if_true]

/-- Two parsers have the same outcome when they agree on the error, and on the candidate of a
success. -/
theorem outcome_eq_iff {p q : Parser} :
    p.outcome = q.outcome ↔
      p.error = q.error ∧ (p.error = none → p.candidate = q.candidate) := by
  unfold Parser.outcome
  cases p.error <;> cases q.error <;> simp

/-- **Chunk independence.** Two ways of cutting one body into pieces give the same result code and,
when it is a success, the same candidate; and the loop over a piece ends. -/
theorem feedPieces_chunk_independent (parser : Parser) {pieces pieces' : List (List UInt8)}
    (hbody : pieces.flatten = pieces'.flatten)
    (hle : parser.bodyBytes + pieces.flatten.length ≤ parser.maxBodyBytes) :
    (vibeUsageParserFinish (feedPieces parser pieces)).error =
        (vibeUsageParserFinish (feedPieces parser pieces')).error ∧
      ((vibeUsageParserFinish (feedPieces parser pieces)).error = none →
        (vibeUsageParserFinish (feedPieces parser pieces)).candidate =
          (vibeUsageParserFinish (feedPieces parser pieces')).candidate) ∧
      ∀ (p : Parser) (data : List UInt8),
        ∃ fed, ∀ fuel, 2 * data.length ≤ fuel → feedLoop fuel p data = some fed := by
  have houtcome : (vibeUsageParserFinish (feedPieces parser pieces)).outcome =
      (vibeUsageParserFinish (feedPieces parser pieces')).outcome := by
    cases herr : parser.error with
    | some error => rw [feedPieces_of_error herr, feedPieces_of_error herr]
    | none =>
      rw [outcome_feedPieces herr hle, outcome_feedPieces herr (by rw [← hbody]; exact hle),
        hbody]
  obtain ⟨herror, hcandidate⟩ := outcome_eq_iff.1 houtcome
  exact ⟨herror, hcandidate, feedLoop_of_le⟩

/-- One bucket of 42 tokens, as a server sends it. -/
def codexBody : List UInt8 :=
  ascii ("\x7b\"buckets\":[\x7b\"source\":\"codex\",\"bucketStart\":\"2026-07-15T01:00:00Z\"," ++
    "\"totalTokens\":42\x7d],\"hasAnyData\":true\x7d").toList

/-- The same, cut between the digits of the number. -/
def codexPieces : List (List UInt8) := [codexBody.take 82, codexBody.drop 82]

theorem flatten_codexPieces : codexPieces.flatten = codexBody := by
  simp [codexPieces]

/-- Cut inside the number and in one piece, the body gives the same candidate. -/
theorem feedPieces_chunk_independent_codex :
    let parser := vibeUsageParserInit 20260715 .utc
    let cut := vibeUsageParserFinish (feedPieces parser codexPieces)
    let whole := vibeUsageParserFinish (feedPieces parser [codexBody])
    cut.error = none ∧ whole.error = none ∧ cut.candidate.totalTokens = 42 ∧
      cut.candidate = whole.candidate := by
  have hbody : codexPieces.flatten = [codexBody].flatten := by
    rw [flatten_codexPieces, List.flatten_singleton]
  have haccepted : (vibeUsageParserFinish
      (feedPieces (vibeUsageParserInit 20260715 .utc) codexPieces)).error = none := by
    decide +kernel
  have htokens : (vibeUsageParserFinish (feedPieces (vibeUsageParserInit 20260715 .utc)
      codexPieces)).candidate.totalTokens = 42 := by decide +kernel
  obtain ⟨herror, hcandidate, -⟩ :=
    feedPieces_chunk_independent (vibeUsageParserInit 20260715 .utc) hbody (by decide +kernel)
  exact ⟨haccepted, herror.symm.trans haccepted, htokens, hcandidate haccepted⟩

end VibeUsage
