import VibeUsage.Aggregate
import VibeUsage.Date

/-!
# The streaming usage parser

`vibe_parser.c`: a byte-at-a-time lexer (`lexStep`) that drives a stack of open containers
(`handleToken`), which in turn fills the day candidate.

The C struct is flat; here its fields are grouped by who writes them. `Lexer` holds the token under
construction, `Grammar` the container stack, the flags of the response and the bucket being read,
`Machine` both, and `Parser` adds the byte limit and the sticky error. A token is emitted in tail
position of every branch of `lex_byte`, so `lexStep` returns the token and `lexByte` emits it.

A failing call discards the state it was changing: the parser only ever returns its error from then
on, and its caller drops the candidate.
-/

namespace VibeUsage

inductive LexState where
  | idle | string | escape | unicode | number | literal | lowBackslash | lowU
  deriving DecidableEq, Repr

inductive TokenKind where
  | leftObject | rightObject | leftArray | rightArray | colon | comma
  | string | number | true | false | null
  deriving DecidableEq, Repr

inductive FrameType where
  | object | array
  deriving DecidableEq, Repr

inductive FrameState where
  | objectKeyOrEnd | objectColon | objectValue | objectCommaOrEnd
  | arrayValueOrEnd | arrayCommaOrEnd | objectKeyRequired | arrayValueRequired
  deriving DecidableEq, Repr

inductive Role where
  | ignore | root | bucketsArray | bucket
  deriving DecidableEq, Repr

/-- `VIBE_PARSER_MAX_DEPTH` -/
def parserMaxDepth : ℕ := 16

/-- `VIBE_PARSER_TOKEN_BYTES` -/
def parserTokenBytes : ℕ := 1025

/-- `VIBE_PARSER_DEFAULT_MAX_BODY` -/
def parserDefaultMaxBody : ℕ := 2 * 1024 * 1024

/-- `VIBE_PARSER_DEFAULT_MAX_BUCKETS` -/
def parserDefaultMaxBuckets : UInt32 := 20000

/-- The size of a frame's `key` array. -/
def frameKeyBytes : ℕ := 40

/-- The size of the `bucket_start` array. -/
def bucketStartBytes : ℕ := 65

/-- A `vibe_json_frame_t`. -/
structure JsonFrame where
  type : FrameType
  state : FrameState
  role : Role
  keyTruncated : Bool
  key : CString

/-- The fields of the token under construction. `token` holds the retained bytes. -/
structure Lexer where
  lexState : LexState
  literalKind : TokenKind
  literalPosition : ℕ
  unicodeDigits : ℕ
  unicodeValue : ℕ
  pendingHighSurrogate : ℕ
  utf8Remaining : ℕ
  utf8Codepoint : ℕ
  utf8Minimum : ℕ
  token : List UInt8
  tokenTotalLength : ℕ
  tokenTruncated : Bool

/-- The container stack, innermost first, and what the response has shown so far. -/
structure Grammar where
  candidate : DayCandidate
  targetDateKey : Int32
  timezone : Timezone
  maxBuckets : UInt32
  frames : List JsonFrame
  rootStarted : Bool
  rootComplete : Bool
  seenBuckets : Bool
  seenHasAnyData : Bool
  rootHasAnyData : Bool
  bucketSeenSource : Bool
  bucketSeenStart : Bool
  bucketSeenTotal : Bool
  bucketSourceOther : Bool
  bucketSource : CString
  bucketStart : CString
  bucketTotal : UInt64

/-- Everything a byte can change. -/
structure Machine where
  lexer : Lexer
  grammar : Grammar

/-- A `vibe_usage_parser_t`. -/
structure Parser where
  machine : Machine
  maxBodyBytes : ℕ
  bodyBytes : ℕ
  error : Option VibeError

/-! ### Tokens -/

def isSpace (byte : UInt8) : Bool :=
  byte = 0x20 || byte = 0x09 || byte = 0x0D || byte = 0x0A

def keyIs (frame : JsonFrame) (key : CString) : Bool :=
  !frame.keyTruncated && frame.key = key

def tokenHasEmbeddedNul (lexer : Lexer) : Bool :=
  lexer.token.contains 0

def tokenReset (lexer : Lexer) : Lexer :=
  { lexer with
    token := [], tokenTotalLength := 0, tokenTruncated := false
    utf8Remaining := 0, utf8Codepoint := 0, utf8Minimum := 0 }

def tokenAppend (lexer : Lexer) (byte : UInt8) : Lexer :=
  if lexer.token.length + 1 < parserTokenBytes then
    { lexer with token := lexer.token ++ [byte], tokenTotalLength := lexer.tokenTotalLength + 1 }
  else { lexer with tokenTruncated := true, tokenTotalLength := lexer.tokenTotalLength + 1 }

def appendCodepoint (lexer : Lexer) (codepoint : ℕ) : Option Lexer :=
  if codepoint ≤ 0x7F then
    some (tokenAppend lexer (UInt8.ofNat codepoint))
  else if codepoint ≤ 0x7FF then
    let lexer := tokenAppend lexer (UInt8.ofNat (0xC0 ||| codepoint >>> 6))
    some (tokenAppend lexer (UInt8.ofNat (0x80 ||| codepoint &&& 0x3F)))
  else if codepoint ≤ 0xFFFF then
    let lexer := tokenAppend lexer (UInt8.ofNat (0xE0 ||| codepoint >>> 12))
    let lexer := tokenAppend lexer (UInt8.ofNat (0x80 ||| codepoint >>> 6 &&& 0x3F))
    some (tokenAppend lexer (UInt8.ofNat (0x80 ||| codepoint &&& 0x3F)))
  else if codepoint ≤ 0x10FFFF then
    let lexer := tokenAppend lexer (UInt8.ofNat (0xF0 ||| codepoint >>> 18))
    let lexer := tokenAppend lexer (UInt8.ofNat (0x80 ||| codepoint >>> 12 &&& 0x3F))
    let lexer := tokenAppend lexer (UInt8.ofNat (0x80 ||| codepoint >>> 6 &&& 0x3F))
    some (tokenAppend lexer (UInt8.ofNat (0x80 ||| codepoint &&& 0x3F)))
  else none

/-- The value of a hexadecimal digit; `none` is the source's `-1`. -/
def hexValue (byte : UInt8) : Option ℕ :=
  if 0x30 ≤ byte ∧ byte ≤ 0x39 then some (byte.toNat - 0x30)
  else if 0x61 ≤ byte ∧ byte ≤ 0x66 then some (byte.toNat - 0x61 + 10)
  else if 0x41 ≤ byte ∧ byte ≤ 0x46 then some (byte.toNat - 0x41 + 10)
  else none

def isDigitByte (byte : UInt8) : Bool := decide (0x30 ≤ byte ∧ byte ≤ 0x39)

/-- The optional fraction; the rest of the text after it. -/
def skipNumberFraction : List UInt8 → Option (List UInt8)
  | [] => some []
  | c :: text =>
    if c = 0x2E then
      if (text.takeWhile isDigitByte).isEmpty then none else some (text.dropWhile isDigitByte)
    else some (c :: text)

/-- The optional exponent; the rest of the text after it. -/
def skipNumberExponent : List UInt8 → Option (List UInt8)
  | [] => some []
  | c :: text =>
    if c = 0x65 ∨ c = 0x45 then
      let digits := match text with
        | s :: rest => if s = 0x2B ∨ s = 0x2D then rest else text
        | [] => text
      if (digits.takeWhile isDigitByte).isEmpty then none else some (digits.dropWhile isDigitByte)
    else some (c :: text)

/-- The integer part; the rest of the text after it. -/
def skipNumberInteger : List UInt8 → Option (List UInt8)
  | [] => none
  | c :: text =>
    if c = 0x30 then
      match text with
      | d :: _ => if isDigitByte d then none else some text
      | [] => some text
    else if c < 0x31 ∨ c > 0x39 then none
    else some (text.dropWhile isDigitByte)

/-- The cursor of the source is the unread rest of the text here. -/
def jsonNumberValid (text : List UInt8) : Bool :=
  let text := match text with
    | c :: rest => if c = 0x2D then rest else text
    | [] => text
  match (skipNumberInteger text).bind fun text ↦
      (skipNumberFraction text).bind skipNumberExponent with
  | some rest => rest.isEmpty
  | none => false

/-- The digits of a token, in order, with the guard that keeps the value in 64 bits. -/
def parseU64Digits : List UInt8 → (result : ℕ) → Except VibeError ℕ
  | [], result => .ok result
  | digit :: digits, result =>
    if digit < 0x30 ∨ digit > 0x39 then .error .schema
    else
      let numeric := digit.toNat - 0x30
      if result > (2 ^ 64 - 1 - numeric) / 10 then .error .overflow
      else parseU64Digits digits (result * 10 + numeric)

def parseU64Token (lexer : Lexer) : Except VibeError UInt64 :=
  if lexer.tokenTruncated ∨ lexer.token.length = 0 ∨ lexer.token.length > 32 then .error .schema
  else (parseU64Digits lexer.token 0).map UInt64.ofNat

/-! ### The response -/

def keyBuckets : CString := ⟨ascii ['b', 'u', 'c', 'k', 'e', 't', 's'], by decide⟩

def keyHasAnyData : CString :=
  ⟨ascii ['h', 'a', 's', 'A', 'n', 'y', 'D', 'a', 't', 'a'], by decide⟩

def keySource : CString := ⟨ascii ['s', 'o', 'u', 'r', 'c', 'e'], by decide⟩

def keyBucketStart : CString :=
  ⟨ascii ['b', 'u', 'c', 'k', 'e', 't', 'S', 't', 'a', 'r', 't'], by decide⟩

def keyTotalTokens : CString :=
  ⟨ascii ['t', 'o', 't', 'a', 'l', 'T', 'o', 'k', 'e', 'n', 's'], by decide⟩

/-- The root keys that announce more pages. -/
def paginationKeys : List CString :=
  [⟨ascii ['n', 'e', 'x', 't'], by decide⟩,
    ⟨ascii ['n', 'e', 'x', 't', 'C', 'u', 'r', 's', 'o', 'r'], by decide⟩,
    ⟨ascii ['c', 'u', 'r', 's', 'o', 'r'], by decide⟩,
    ⟨ascii ['t', 'r', 'u', 'n', 'c', 'a', 't', 'e', 'd'], by decide⟩,
    ⟨ascii ['h', 'a', 's', 'M', 'o', 'r', 'e'], by decide⟩,
    ⟨ascii ['p', 'a', 'g', 'i', 'n', 'a', 't', 'i', 'o', 'n'], by decide⟩]

def keyIsPagination (frame : JsonFrame) : Bool := paginationKeys.any (keyIs frame)

def resetBucket (g : Grammar) : Grammar :=
  { g with
    bucketSeenSource := false, bucketSeenStart := false, bucketSeenTotal := false
    bucketSourceOther := false, bucketSource := .empty, bucketStart := .empty, bucketTotal := 0 }

def finishBucket (g : Grammar) : Except VibeError Grammar :=
  if ¬ g.bucketSeenSource ∨ ¬ g.bucketSeenStart ∨ ¬ g.bucketSeenTotal ∨
      g.bucketSource.bytes = [] then .error .schema
  else
    match vibeIso8601ToDate g.bucketStart g.timezone with
    | .error error => .error error
    | .ok actualDate =>
      if actualDate ≠ g.targetDateKey then .error .outOfRange
      else if g.candidate.bucketCount ≥ g.maxBuckets then .error .tooManyBuckets
      else
        match vibeDayCandidateAdd g.candidate
            (if g.bucketSourceOther then otherSourceId else g.bucketSource) g.bucketTotal with
        | (none, candidate) => .ok { g with candidate }
        | (some error, _) => .error error

def pushFrame (g : Grammar) (type : FrameType) (role : Role) : Except VibeError Grammar :=
  if g.frames.length ≥ parserMaxDepth then .error .invalidJson
  else
    let frame : JsonFrame :=
      { type, role, keyTruncated := false, key := .empty
        state := if type = .object then .objectKeyOrEnd else .arrayValueOrEnd }
    let g := { g with frames := frame :: g.frames }
    .ok (if role = .bucket then resetBucket g else g)

/-- What closing a container of a role checks and records. -/
def closeRole (g : Grammar) : Role → Except VibeError Grammar
  | .bucket => finishBucket g
  | .bucketsArray => .ok { g with seenBuckets := true }
  | .root => if ¬ g.seenBuckets ∨ ¬ g.seenHasAnyData then .error .schema else .ok g
  | .ignore => .ok g

def closeFrame (g : Grammar) (type : FrameType) : Except VibeError Grammar :=
  match g.frames with
  | [] => .error .invalidJson
  | frame :: rest =>
    if frame.type ≠ type then .error .invalidJson
    else do
      let g ← closeRole g frame.role
      return { g with frames := rest, rootComplete := g.rootComplete || rest.isEmpty }

def handleRootScalar (g : Grammar) (frame : JsonFrame) (token : TokenKind) :
    Except VibeError Grammar :=
  if keyIs frame keyBuckets then .error .schema
  else if keyIsPagination frame then .error .schema
  else if keyIs frame keyHasAnyData then
    if g.seenHasAnyData ∨ (token ≠ .true ∧ token ≠ .false) then .error .schema
    else .ok { g with seenHasAnyData := true, rootHasAnyData := token = .true }
  else .ok g

def handleBucketScalar (lexer : Lexer) (g : Grammar) (frame : JsonFrame) (token : TokenKind) :
    Except VibeError Grammar :=
  if keyIs frame keySource then
    if g.bucketSeenSource ∨ token ≠ .string then .error .schema
    else if tokenHasEmbeddedNul lexer then .error .schema
    else if lexer.tokenTotalLength = 0 then .error .schema
    else if lexer.tokenTruncated ∨ lexer.tokenTotalLength ≥ sourceIdBytes then
      .ok { g with
        bucketSeenSource := true, bucketSourceOther := true
        bucketSource := otherSourceId.strncpy (sourceIdBytes - 1) }
    else .ok { g with bucketSeenSource := true, bucketSource := .ofBytes lexer.token }
  else if keyIs frame keyBucketStart then
    if g.bucketSeenStart ∨ token ≠ .string ∨ tokenHasEmbeddedNul lexer ∨ lexer.tokenTruncated ∨
        lexer.tokenTotalLength = 0 ∨ lexer.tokenTotalLength ≥ bucketStartBytes then .error .schema
    else .ok { g with bucketSeenStart := true, bucketStart := .ofBytes lexer.token }
  else if keyIs frame keyTotalTokens then
    if g.bucketSeenTotal ∨ token ≠ .number then .error .schema
    else do
      let bucketTotal ← parseU64Token lexer
      return { g with bucketSeenTotal := true, bucketTotal }
  else .ok g

def handleScalar (lexer : Lexer) (g : Grammar) (frame : JsonFrame) (token : TokenKind) :
    Except VibeError Grammar :=
  match frame.role with
  | .root => handleRootScalar g frame token
  | .bucket => handleBucketScalar lexer g frame token
  | _ => .ok g

/-- The role of a container under `parent`, or the schema error its place there is. -/
def containerRole (g : Grammar) (parent : JsonFrame) (token : TokenKind) :
    Except VibeError Role :=
  match parent.role with
  | .root =>
    if keyIs parent keyBuckets then
      if g.seenBuckets ∨ token ≠ .leftArray then .error .schema else .ok .bucketsArray
    else if keyIs parent keyHasAnyData then .error .schema
    else if keyIsPagination parent then .error .schema
    else .ok .ignore
  | .bucketsArray => if token ≠ .leftObject then .error .schema else .ok .bucket
  | .bucket =>
    if keyIs parent keySource ∨ keyIs parent keyBucketStart ∨ keyIs parent keyTotalTokens then
      .error .schema
    else .ok .ignore
  | .ignore => .ok .ignore

def consumeValue (lexer : Lexer) (g : Grammar) (parent : JsonFrame) (token : TokenKind) :
    Except VibeError Grammar :=
  if token = .leftObject ∨ token = .leftArray then do
    let role ← containerRole g parent token
    pushFrame g (if token = .leftObject then .object else .array) role
  else if token ≠ .string ∧ token ≠ .number ∧ token ≠ .true ∧ token ≠ .false ∧ token ≠ .null then
    .error .invalidJson
  else if parent.role = .bucketsArray then .error .schema
  else handleScalar lexer g parent token

/-- A member's name. -/
def readKey (lexer : Lexer) (g : Grammar) (frame : JsonFrame) (rest : List JsonFrame)
    (token : TokenKind) : Except VibeError Grammar :=
  if token ≠ .string then .error .invalidJson
  else
    let keyTruncated := lexer.tokenTruncated || tokenHasEmbeddedNul lexer ||
      lexer.tokenTotalLength ≥ frameKeyBytes
    let key := if keyTruncated then .empty else .ofBytes lexer.token
    .ok { g with frames := { frame with keyTruncated, key, state := .objectColon } :: rest }

/-- A value in an object or an array, after the frame has been told to expect a comma next. -/
def readValue (lexer : Lexer) (g : Grammar) (frame : JsonFrame) (rest : List JsonFrame)
    (state : FrameState) (token : TokenKind) : Except VibeError Grammar :=
  let frame := { frame with state }
  consumeValue lexer { g with frames := frame :: rest } frame token

def handleFrameToken (lexer : Lexer) (g : Grammar) (frame : JsonFrame) (rest : List JsonFrame)
    (token : TokenKind) : Except VibeError Grammar :=
  match frame.type, frame.state with
  | .object, .objectKeyOrEnd =>
    if token = .rightObject then closeFrame g .object else readKey lexer g frame rest token
  | .object, .objectKeyRequired => readKey lexer g frame rest token
  | .object, .objectColon =>
    if token ≠ .colon then .error .invalidJson
    else .ok { g with frames := { frame with state := .objectValue } :: rest }
  | .object, .objectValue => readValue lexer g frame rest .objectCommaOrEnd token
  | .object, .objectCommaOrEnd =>
    if token = .comma then
      .ok { g with frames := { frame with state := .objectKeyRequired } :: rest }
    else if token = .rightObject then closeFrame g .object
    else .error .invalidJson
  | .object, _ => .error .invalidJson
  | .array, .arrayValueOrEnd =>
    if token = .rightArray then closeFrame g .array
    else readValue lexer g frame rest .arrayCommaOrEnd token
  | .array, .arrayValueRequired => readValue lexer g frame rest .arrayCommaOrEnd token
  | .array, .arrayCommaOrEnd =>
    if token = .comma then
      .ok { g with frames := { frame with state := .arrayValueRequired } :: rest }
    else if token = .rightArray then closeFrame g .array
    else .error .invalidJson
  | .array, _ => .error .invalidJson

def handleToken (lexer : Lexer) (g : Grammar) (token : TokenKind) : Except VibeError Grammar :=
  if g.rootComplete then .error .invalidJson
  else if ¬ g.rootStarted then
    if token ≠ .leftObject then .error .invalidJson
    else pushFrame { g with rootStarted := true } .object .root
  else
    match g.frames with
    | [] => .error .invalidJson
    | frame :: rest => handleFrameToken lexer g frame rest token

def emitToken (lexer : Lexer) (g : Grammar) (token : TokenKind) : Except VibeError Grammar :=
  if token = .number ∧ (lexer.tokenTruncated ∨ lexer.token.length > 32 ∨
      ¬ jsonNumberValid lexer.token) then .error .invalidJson
  else handleToken lexer g token

/-! ### Bytes -/

def numberByte (byte : UInt8) : Bool :=
  isDigitByte byte || byte = 0x2D || byte = 0x2B || byte = 0x2E || byte = 0x65 || byte = 0x45

/-- The text of a literal, as `lex_byte` spells it. -/
def literalText (kind : TokenKind) : List UInt8 :=
  if kind = .true then ascii ['t', 'r', 'u', 'e']
  else if kind = .false then ascii ['f', 'a', 'l', 's', 'e']
  else ascii ['n', 'u', 'l', 'l']

/-- What one byte does to the lexer, whether it was consumed, and the token it completes. -/
abbrev LexResult := Except VibeError (Lexer × Bool × Option TokenKind)

def lexIdle (lexer : Lexer) (byte : UInt8) : LexResult :=
  if isSpace byte then .ok (lexer, true, none)
  else if byte = 0x7B then .ok (lexer, true, some .leftObject)
  else if byte = 0x7D then .ok (lexer, true, some .rightObject)
  else if byte = 0x5B then .ok (lexer, true, some .leftArray)
  else if byte = 0x5D then .ok (lexer, true, some .rightArray)
  else if byte = 0x3A then .ok (lexer, true, some .colon)
  else if byte = 0x2C then .ok (lexer, true, some .comma)
  else if byte = 0x22 then .ok ({ tokenReset lexer with lexState := .string }, true, none)
  else if byte = 0x74 ∨ byte = 0x66 ∨ byte = 0x6E then
    let literalKind := if byte = 0x74 then .true else if byte = 0x66 then .false else .null
    .ok ({ lexer with literalKind, literalPosition := 1, lexState := .literal }, true, none)
  else if byte = 0x2D ∨ isDigitByte byte then
    .ok ({ tokenAppend (tokenReset lexer) byte with lexState := .number }, true, none)
  else .error .invalidJson

/-- A continuation byte of a multi-byte character. -/
def lexContinuation (lexer : Lexer) (byte : UInt8) : LexResult :=
  if byte < 0x80 ∨ byte > 0xBF then .error .invalidJson
  else
    let lexer := tokenAppend lexer byte
    let codepoint := lexer.utf8Codepoint <<< 6 ||| (byte.toNat &&& 0x3F)
    let remaining := lexer.utf8Remaining - 1
    if remaining = 0 ∧ (codepoint < lexer.utf8Minimum ∨ codepoint > 0x10FFFF ∨
        (0xD800 ≤ codepoint ∧ codepoint ≤ 0xDFFF)) then .error .invalidJson
    else .ok ({ lexer with utf8Codepoint := codepoint, utf8Remaining := remaining }, true, none)

/-- The first byte of a character inside a string. -/
def lexStringStart (lexer : Lexer) (byte : UInt8) : LexResult :=
  if byte = 0x22 then .ok ({ lexer with lexState := .idle }, true, some .string)
  else if byte = 0x5C then .ok ({ lexer with lexState := .escape }, true, none)
  else if byte < 0x20 then .error .invalidJson
  else if byte < 0x80 then .ok (tokenAppend lexer byte, true, none)
  else if 0xC2 ≤ byte ∧ byte ≤ 0xDF then
    .ok (tokenAppend { lexer with
      utf8Remaining := 1, utf8Codepoint := byte.toNat &&& 0x1F, utf8Minimum := 0x80 } byte,
      true, none)
  else if 0xE0 ≤ byte ∧ byte ≤ 0xEF then
    .ok (tokenAppend { lexer with
      utf8Remaining := 2, utf8Codepoint := byte.toNat &&& 0x0F, utf8Minimum := 0x800 } byte,
      true, none)
  else if 0xF0 ≤ byte ∧ byte ≤ 0xF4 then
    .ok (tokenAppend { lexer with
      utf8Remaining := 3, utf8Codepoint := byte.toNat &&& 0x07, utf8Minimum := 0x10000 } byte,
      true, none)
  else .error .invalidJson

def lexEscape (lexer : Lexer) (byte : UInt8) : LexResult :=
  let lexer := { lexer with lexState := .string }
  if byte = 0x22 ∨ byte = 0x5C ∨ byte = 0x2F then .ok (tokenAppend lexer byte, true, none)
  else if byte = 0x62 then .ok (tokenAppend lexer 0x08, true, none)
  else if byte = 0x66 then .ok (tokenAppend lexer 0x0C, true, none)
  else if byte = 0x6E then .ok (tokenAppend lexer 0x0A, true, none)
  else if byte = 0x72 then .ok (tokenAppend lexer 0x0D, true, none)
  else if byte = 0x74 then .ok (tokenAppend lexer 0x09, true, none)
  else if byte = 0x75 then
    .ok ({ lexer with unicodeDigits := 0, unicodeValue := 0, lexState := .unicode }, true, none)
  else .error .invalidJson

/-- The fourth hexadecimal digit of an escape completes the code unit `code`. -/
def lexCodeUnit (lexer : Lexer) (code : ℕ) : LexResult :=
  if lexer.pendingHighSurrogate ≠ 0 then
    if code < 0xDC00 ∨ code > 0xDFFF then .error .invalidJson
    else
      let combined := 0x10000 + (lexer.pendingHighSurrogate - 0xD800) <<< 10 + (code - 0xDC00)
      match appendCodepoint { lexer with pendingHighSurrogate := 0, lexState := .string }
          combined with
      | some lexer => .ok (lexer, true, none)
      | none => .error .invalidJson
  else if 0xD800 ≤ code ∧ code ≤ 0xDBFF then
    .ok ({ lexer with pendingHighSurrogate := code, lexState := .lowBackslash }, true, none)
  else if 0xDC00 ≤ code ∧ code ≤ 0xDFFF then .error .invalidJson
  else
    match appendCodepoint { lexer with lexState := .string } code with
    | some lexer => .ok (lexer, true, none)
    | none => .error .invalidJson

def lexUnicode (lexer : Lexer) (byte : UInt8) : LexResult :=
  match hexValue byte with
  | none => .error .invalidJson
  | some value =>
    let lexer :=
      { lexer with
        unicodeValue := lexer.unicodeValue <<< 4 ||| value
        unicodeDigits := lexer.unicodeDigits + 1 }
    if lexer.unicodeDigits < 4 then .ok (lexer, true, none)
    else lexCodeUnit lexer lexer.unicodeValue

def lexLiteral (lexer : Lexer) (byte : UInt8) : LexResult :=
  let expected := literalText lexer.literalKind
  if expected[lexer.literalPosition]? ≠ some byte then .error .invalidJson
  else
    let lexer := { lexer with literalPosition := lexer.literalPosition + 1 }
    if lexer.literalPosition = expected.length then
      .ok ({ lexer with lexState := .idle }, true, some lexer.literalKind)
    else .ok (lexer, true, none)

def lexStep (lexer : Lexer) (byte : UInt8) : LexResult :=
  match lexer.lexState with
  | .idle => lexIdle lexer byte
  | .string =>
    if lexer.utf8Remaining ≠ 0 then lexContinuation lexer byte else lexStringStart lexer byte
  | .escape => lexEscape lexer byte
  | .unicode => lexUnicode lexer byte
  | .lowBackslash =>
    if byte ≠ 0x5C then .error .invalidJson
    else .ok ({ lexer with lexState := .lowU }, true, none)
  | .lowU =>
    if byte ≠ 0x75 then .error .invalidJson
    else .ok ({ lexer with unicodeDigits := 0, unicodeValue := 0, lexState := .unicode },
      true, none)
  | .number =>
    if numberByte byte then .ok (tokenAppend lexer byte, true, none)
    else .ok ({ lexer with lexState := .idle }, false, some .number)
  | .literal => lexLiteral lexer byte

/-- One call of `lex_byte`, with the value it leaves in `*consumed`. -/
def lexByte (m : Machine) (byte : UInt8) : Except VibeError (Machine × Bool) := do
  let (lexer, consumed, token) ← lexStep m.lexer byte
  match token with
  | none => return ({ m with lexer }, consumed)
  | some token =>
    let grammar ← emitToken lexer m.grammar token
    return ({ lexer, grammar }, consumed)

/-! ### The interface -/

def lexerInit : Lexer where
  lexState := .idle
  literalKind := .null
  literalPosition := 0
  unicodeDigits := 0
  unicodeValue := 0
  pendingHighSurrogate := 0
  utf8Remaining := 0
  utf8Codepoint := 0
  utf8Minimum := 0
  token := []
  tokenTotalLength := 0
  tokenTruncated := false

def grammarInit (targetDateKey : Int32) (timezone : Timezone) (maxBuckets : UInt32) :
    Grammar where
  candidate := vibeDayCandidateInit targetDateKey
  targetDateKey := targetDateKey
  timezone := timezone
  maxBuckets := maxBuckets
  frames := []
  rootStarted := false
  rootComplete := false
  seenBuckets := false
  seenHasAnyData := false
  rootHasAnyData := false
  bucketSeenSource := false
  bucketSeenStart := false
  bucketSeenTotal := false
  bucketSourceOther := false
  bucketSource := .empty
  bucketStart := .empty
  bucketTotal := 0

def vibeUsageParserInit (targetDateKey : Int32) (timezone : Timezone) : Parser where
  machine :=
    { lexer := lexerInit, grammar := grammarInit targetDateKey timezone parserDefaultMaxBuckets }
  maxBodyBytes := parserDefaultMaxBody
  bodyBytes := 0
  error :=
    if vibeDateIsValid targetDateKey ∧ timezone.Supported then none else some .invalidArgument

def vibeUsageParserSetLimits (parser : Parser) (maxBodyBytes : ℕ) (maxBuckets : UInt32) :
    Parser :=
  if maxBodyBytes = 0 ∨ maxBuckets = 0 then parser
  else
    { parser with
      maxBodyBytes
      machine.grammar.maxBuckets := maxBuckets }

/-- The loop of `vibe_usage_parser_feed`, `none` when `fuel` iterations do not end it. -/
def feedLoop : (fuel : ℕ) → Parser → List UInt8 → Option Parser
  | _, parser, [] => some parser
  | 0, _, _ :: _ => none
  | fuel + 1, parser, byte :: data =>
    match lexByte parser.machine byte with
    | .error error => some { parser with error := some error }
    | .ok (machine, consumed) =>
      feedLoop fuel { parser with machine } (if consumed then data else byte :: data)

/-- The status returned is the `error` of the parser left behind. Two iterations for each byte end
the loop (`feedLoop_isSome`), so the default is never taken. -/
def vibeUsageParserFeed (parser : Parser) (data : List UInt8) : Parser :=
  if parser.error.isSome then parser
  else if parser.bodyBytes > parser.maxBodyBytes ∨
      data.length > parser.maxBodyBytes - parser.bodyBytes then
    { parser with error := some .bodyTooLarge }
  else
    let parser := { parser with bodyBytes := parser.bodyBytes + data.length }
    (feedLoop (2 * data.length) parser data).getD parser

/-- The pending number token, or the complaint about an unfinished one. -/
def finishToken (m : Machine) : Except VibeError Machine :=
  match m.lexer.lexState with
  | .number => do
    let lexer := { m.lexer with lexState := .idle }
    let grammar ← emitToken lexer m.grammar .number
    return { lexer, grammar }
  | .idle => .ok m
  | _ => .error .invalidJson

/-- What `vibe_usage_parser_finish` asks of the machine at the end of the body. -/
def finishMachine (m : Machine) : Except VibeError Machine := do
  let m ← finishToken m
  let g := m.grammar
  if ¬ g.rootStarted ∨ ¬ g.rootComplete ∨ g.frames.length ≠ 0 ∨ ¬ g.seenBuckets ∨
      ¬ g.seenHasAnyData then throw .invalidJson
  return { m with grammar.candidate.hasAnyData := g.rootHasAnyData }

def vibeUsageParserFinish (parser : Parser) : Parser :=
  if parser.error.isSome then parser
  else
    match finishMachine parser.machine with
    | .ok machine => { parser with machine }
    | .error error => { parser with error := some error }

/-- The candidate the parser writes to. -/
def Parser.candidate (parser : Parser) : DayCandidate := parser.machine.grammar.candidate

end VibeUsage
