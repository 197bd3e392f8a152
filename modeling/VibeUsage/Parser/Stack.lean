import VibeUsage.Lib.JsonReader
import VibeUsage.Parser.Lexer

/-!
# The container stack follows the reader

The stack of frames keeps of each open container its type and what may come next in it. That is less
than `Rfc8259.Reading` keeps, and every token the stack takes is one the reader takes
(`step_follows`): what the two share is `shape`, a list of frame types and states. So a token
sequence that leads the stack to a complete root is the token sequence of a value
(`tokens_of_runTokens`).

The stack accepts less than the reader, since the schema refuses much that is JSON. Only this
direction is needed: what is accepted was a value.
-/

namespace VibeUsage

open Rfc8259 (Token Value Reading Context)
open Rfc8259.Reading (shift shiftValue plug)

abbrev Shape := List (FrameType × FrameState)

/-- The frames of contexts whose value is being read: they already expect a comma. -/
def waiting (cs : List Context) : Shape :=
  cs.map fun
    | .item _ => (.array, .arrayCommaOrEnd)
    | .member _ _ => (.object, .objectCommaOrEnd)

/-- The frames of a reading. -/
def shape : Reading → Shape
  | .value [] => []
  | .value (.item _ :: cs) => (.array, .arrayValueRequired) :: waiting cs
  | .value (.member _ _ :: cs) => (.object, .objectValue) :: waiting cs
  | .itemOrEnd cs => (.array, .arrayValueOrEnd) :: waiting cs
  | .itemEnd _ cs => (.array, .arrayCommaOrEnd) :: waiting cs
  | .nameOrEnd cs => (.object, .objectKeyOrEnd) :: waiting cs
  | .name _ cs => (.object, .objectKeyRequired) :: waiting cs
  | .colon _ _ cs => (.object, .objectColon) :: waiting cs
  | .memberEnd _ cs => (.object, .objectCommaOrEnd) :: waiting cs
  | .complete _ => []

def shapeOf (frames : List JsonFrame) : Shape := frames.map fun frame ↦ (frame.type, frame.state)

/-- The shape of a stack, by its top. -/
theorem shapeOf_cons {frame : JsonFrame} {rest : List JsonFrame} {type : FrameType}
    {state : FrameState} {w : Shape} :
    shapeOf (frame :: rest) = (type, state) :: w ↔
      frame.type = type ∧ frame.state = state ∧ shapeOf rest = w := by
  simp [shapeOf, and_assoc]

/-- The stack stands where the reader stands. -/
structure Follows (g : Grammar) (r : Reading) : Prop where
  frames : shapeOf g.frames = shape r
  started : g.rootStarted = true ↔ r ≠ .value []
  complete : g.rootComplete = true ↔ ∃ v, r = .complete v

/-- The values inside a container are plugged into its contexts. -/
theorem shape_plug (v : Value) (cs : List Context) : shape (plug v cs) = waiting cs := by
  cases cs with
  | nil => rfl
  | cons c cs => cases c <;> rfl

/-- A value that has been put into its place is not awaited. -/
theorem plug_ne_value (v : Value) (cs : List Context) : plug v cs ≠ .value [] := by
  cases cs with
  | nil => simp [plug]
  | cons c cs => cases c <;> simp [plug]

/-- A value is the whole text when nothing is open around it. -/
theorem plug_complete (v : Value) (cs : List Context) :
    (∃ w, plug v cs = .complete w) ↔ cs = [] := by
  cases cs with
  | nil => simp [plug]
  | cons c cs => cases c <;> simp [plug]

/-! ### What the schema layer leaves alone -/

/-- The stack and the marks of its beginning and end are as before. -/
structure SameStack (g g' : Grammar) : Prop where
  frames : g'.frames = g.frames
  started : g'.rootStarted = g.rootStarted
  complete : g'.rootComplete = g.rootComplete

theorem SameStack.refl (g : Grammar) : SameStack g g := ⟨rfl, rfl, rfl⟩

/-- A scalar is noted in the fields of the response. -/
theorem sameStack_handleScalar {lexer : Lexer} {g g' : Grammar} {frame : JsonFrame}
    {token : TokenKind} (h : handleScalar lexer g frame token = .ok g') : SameStack g g' := by
  unfold handleScalar at h
  cases hrole : frame.role <;> rw [hrole] at h <;> dsimp only at h
  · cases h; exact .refl g
  · unfold handleRootScalar at h
    split_ifs at h <;> cases h <;> exact ⟨rfl, rfl, rfl⟩
  · cases h; exact .refl g
  · unfold handleBucketScalar at h
    split_ifs at h
    all_goals first
      | (cases h; exact ⟨rfl, rfl, rfl⟩)
      | (cases hu : parseU64Token lexer with
          | error e => rw [hu] at h; cases h
          | ok total => rw [hu] at h; cases h; exact ⟨rfl, rfl, rfl⟩)

/-- What a bucket needs at its closing brace, and what it leaves. -/
theorem finishBucket_ok {g g' : Grammar} :
    finishBucket g = .ok g' ↔
      (g.bucketSeenSource = true ∧ g.bucketSeenStart = true ∧ g.bucketSeenTotal = true ∧
        g.bucketSource.bytes ≠ []) ∧
      vibeIso8601ToDate g.bucketStart g.timezone = .ok g.targetDateKey ∧
      g.candidate.bucketCount < g.maxBuckets ∧
      ∃ candidate, vibeDayCandidateAdd g.candidate
          (if g.bucketSourceOther then otherSourceId else g.bucketSource) g.bucketTotal =
          (none, candidate) ∧
        g' = { g with candidate } := by
  unfold finishBucket
  constructor
  · intro h
    split at h
    · cases h
    next hseen =>
      cases hdate : vibeIso8601ToDate g.bucketStart g.timezone with
      | error e => rw [hdate] at h; cases h
      | ok date =>
        rw [hdate] at h
        dsimp only at h
        split at h
        · cases h
        next htarget =>
          split at h
          · cases h
          next hroom =>
            split at h
            next candidate hadd =>
              cases h
              refine ⟨by tauto, by rw [not_not.1 htarget], ?_, candidate, hadd, rfl⟩
              exact UInt32.not_le.1 hroom
            · cases h
  · rintro ⟨hseen, hdate, hroom, candidate, hadd, rfl⟩
    rw [if_neg (by tauto), hdate]
    dsimp only
    rw [if_neg (not_not.2 rfl), if_neg (UInt32.not_le.2 hroom), hadd]

/-- A bucket that ends is added to the candidate. -/
theorem sameStack_finishBucket {g g' : Grammar} (h : finishBucket g = .ok g') :
    SameStack g g' := by
  obtain ⟨-, -, -, candidate, -, rfl⟩ := finishBucket_ok.1 h
  exact ⟨rfl, rfl, rfl⟩

/-- The end of a container is noted in the fields of the response. -/
theorem sameStack_closeRole {g g' : Grammar} {role : Role} (h : closeRole g role = .ok g') :
    SameStack g g' := by
  cases role with
  | ignore => cases h; exact .refl g
  | root =>
    unfold closeRole at h
    split_ifs at h
    cases h
    exact .refl g
  | bucketsArray => cases h; exact ⟨rfl, rfl, rfl⟩
  | bucket => exact sameStack_finishBucket h

/-- The frame of a container that has just been opened. -/
def openFrame (type : FrameType) (role : Role) : JsonFrame where
  type := type
  state := if type = .object then .objectKeyOrEnd else .arrayValueOrEnd
  role := role
  keyTruncated := false
  key := .empty

/-- A container is opened when there is room for it. -/
theorem pushFrame_ok {g g' : Grammar} {type : FrameType} {role : Role} :
    pushFrame g type role = .ok g' ↔
      g.frames.length < parserMaxDepth ∧
      g' = if role = .bucket then resetBucket { g with frames := openFrame type role :: g.frames }
        else { g with frames := openFrame type role :: g.frames } := by
  unfold pushFrame
  by_cases hdepth : g.frames.length ≥ parserMaxDepth
  · rw [if_pos hdepth]
    simp only [reduceCtorEq, false_iff, not_and]
    omega
  · rw [if_neg hdepth]
    simp only [Except.ok.injEq]
    exact ⟨fun h ↦ ⟨by omega, h.symm⟩, fun h ↦ h.2.symm⟩

/-- Nothing but the frame is pushed. -/
theorem sameStack_pushFrame {g g' : Grammar} {type : FrameType} {role : Role}
    (h : pushFrame g type role = .ok g') :
    SameStack { g with frames := openFrame type role :: g.frames } g' := by
  obtain ⟨-, rfl⟩ := pushFrame_ok.1 h
  split
  · exact ⟨rfl, rfl, rfl⟩
  · exact ⟨rfl, rfl, rfl⟩

/-- The kinds of tokens that are values by themselves. -/
def IsScalarKind (kind : TokenKind) : Prop :=
  kind = .string ∨ kind = .number ∨ kind = .true ∨ kind = .false ∨ kind = .null

/-- A scalar is handled, but for one in the bucket array. -/
theorem consumeValue_scalar {lexer : Lexer} {g g' : Grammar} {parent : JsonFrame}
    {kind : TokenKind} (hkind : IsScalarKind kind) :
    consumeValue lexer g parent kind = .ok g' ↔
      parent.role ≠ .bucketsArray ∧ handleScalar lexer g parent kind = .ok g' := by
  have hcontainer : ¬ (kind = .leftObject ∨ kind = .leftArray) := by
    rcases hkind with rfl | rfl | rfl | rfl | rfl <;> decide
  have hscalar : ¬ (kind ≠ .string ∧ kind ≠ .number ∧ kind ≠ .true ∧ kind ≠ .false ∧
      kind ≠ .null) := by
    rcases hkind with rfl | rfl | rfl | rfl | rfl <;> decide
  unfold consumeValue
  rw [if_neg hcontainer, if_neg hscalar]
  by_cases hrole : parent.role = .bucketsArray
  · rw [if_pos hrole]
    simp [hrole]
  · rw [if_neg hrole]
    simp [hrole]

/-- An object is pushed with its role. -/
theorem consumeValue_object {lexer : Lexer} {g g' : Grammar} {parent : JsonFrame} :
    consumeValue lexer g parent .leftObject = .ok g' ↔
      ∃ role, containerRole g parent .leftObject = .ok role ∧
        pushFrame g .object role = .ok g' := by
  have hbind : consumeValue lexer g parent .leftObject =
      (containerRole g parent .leftObject >>= fun role ↦ pushFrame g .object role) := rfl
  rw [hbind]
  cases containerRole g parent .leftObject with
  | error e => simp [bind, Except.bind]
  | ok role => simp [bind, Except.bind]

/-- An array is pushed with its role. -/
theorem consumeValue_array {lexer : Lexer} {g g' : Grammar} {parent : JsonFrame} :
    consumeValue lexer g parent .leftArray = .ok g' ↔
      ∃ role, containerRole g parent .leftArray = .ok role ∧
        pushFrame g .array role = .ok g' := by
  have hbind : consumeValue lexer g parent .leftArray =
      (containerRole g parent .leftArray >>= fun role ↦ pushFrame g .array role) := rfl
  rw [hbind]
  cases containerRole g parent .leftArray with
  | error e => simp [bind, Except.bind]
  | ok role => simp [bind, Except.bind]

/-! ### One token -/

/-- **A container is closed**: its value goes where it was awaited. -/
theorem follows_close {g g' : Grammar} {frame : JsonFrame} {rest : List JsonFrame}
    {type : FrameType} {cs : List Context} (v : Value) (hframes : g.frames = frame :: rest)
    (hrest : shapeOf rest = waiting cs) (hstarted : g.rootStarted = true)
    (hcomplete : g.rootComplete = false) (h : closeFrame g type = .ok g') :
    Follows g' (plug v cs) := by
  unfold closeFrame at h
  rw [hframes] at h
  dsimp only at h
  split_ifs at h
  cases hrole : closeRole g frame.role with
  | error e => rw [hrole] at h; cases h
  | ok g₁ =>
    rw [hrole] at h
    cases h
    obtain ⟨-, hstarted', hcomplete'⟩ := sameStack_closeRole hrole
    refine ⟨by rw [shape_plug]; exact hrest, ?_, ?_⟩
    · show g₁.rootStarted = true ↔ _
      simp [hstarted', hstarted, plug_ne_value]
    · have hempty : rest.isEmpty = true ↔ cs = [] := by
        rw [List.isEmpty_iff]
        constructor
        · rintro rfl
          exact List.map_eq_nil_iff.1 hrest.symm
        · rintro rfl
          exact List.map_eq_nil_iff.1 hrest
      rw [plug_complete, ← hempty]
      show (g₁.rootComplete || rest.isEmpty) = true ↔ _
      simp [hcomplete', hcomplete]

/-- The frame with a member's name. -/
def keyed (frame : JsonFrame) (k : List UInt8) : JsonFrame :=
  let keyTruncated := decide (parserTokenBytes ≤ k.length) ||
    (k.take (parserTokenBytes - 1)).contains 0 || decide (k.length ≥ frameKeyBytes)
  { frame with
    keyTruncated
    key := if keyTruncated then .empty else .ofBytes (k.take (parserTokenBytes - 1))
    state := .objectColon }

/-- A name is read where one is awaited. -/
theorem readKey_ok {g g' : Grammar} {frame : JsonFrame} {rest : List JsonFrame} {token : Token} :
    readKey (lexerHolding (payload token)) g frame rest (kindOf token) = .ok g' ↔
      ∃ k, token = .string k ∧ g' = { g with frames := keyed frame k :: rest } := by
  cases token with
  | string k =>
    have hkey : readKey (lexerHolding k) g frame rest .string =
        .ok { g with frames := keyed frame k :: rest } := rfl
    show readKey (lexerHolding k) g frame rest .string = .ok g' ↔ _
    rw [hkey]
    constructor
    · rintro ⟨rfl⟩
      exact ⟨k, rfl, rfl⟩
    · rintro ⟨k', hk, rfl⟩
      cases hk
      rfl
  | _ =>
    constructor
    · intro h
      simp [readKey, kindOf] at h
    · rintro ⟨k, hk, -⟩
      simp at hk

/-- A value's first token, in a frame that expects a comma after the value. -/
theorem follows_value {lexer : Lexer} {g g' : Grammar} {frame : JsonFrame}
    {rest : List JsonFrame} {state : FrameState} {cs : List Context} {token : Token}
    (hne : cs ≠ []) (hshape : (frame.type, state) :: shapeOf rest = waiting cs)
    (hstarted : g.rootStarted = true) (hcomplete : g.rootComplete = false)
    (h : readValue lexer g frame rest state (kindOf token) = .ok g') :
    ∃ r, shiftValue cs token = some r ∧ Follows g' r := by
  replace h : consumeValue lexer { g with frames := { frame with state } :: rest }
    { frame with state } (kindOf token) = .ok g' := h
  -- An opening bracket puts a frame on the stack, a scalar fills its place at once.
  have hcontainer : ∀ {type : FrameType} {r : Reading} {role : Role},
      pushFrame { g with frames := { frame with state } :: rest } type role = .ok g' →
      shape r = (type, (openFrame type role).state) :: waiting cs → r ≠ .value [] →
      (∀ v, r ≠ .complete v) → Follows g' r := by
    intro type r role hpush hr hvalue hdone
    obtain ⟨hframes, hstarted', hcomplete'⟩ := sameStack_pushFrame hpush
    refine ⟨?_, ?_, ?_⟩
    · rw [hframes, hr, ← hshape]
      rfl
    · simp [hstarted', hstarted, hvalue]
    · rw [hcomplete']
      simp only [hcomplete, Bool.false_eq_true, false_iff, not_exists]
      exact hdone
  have hscalar : ∀ v : Value, IsScalarKind (kindOf token) → Follows g' (plug v cs) := by
    intro v hkind
    obtain ⟨-, hok⟩ := (consumeValue_scalar hkind).1 h
    obtain ⟨hframes, hstarted', hcomplete'⟩ := sameStack_handleScalar hok
    refine ⟨?_, ?_, ?_⟩
    · rw [hframes, shape_plug, ← hshape]
      rfl
    · simp [hstarted', hstarted, plug_ne_value]
    · rw [plug_complete]
      simp [hcomplete', hcomplete, hne]
  cases token with
  | leftObject =>
    obtain ⟨role, -, hpush⟩ := consumeValue_object.1 h
    exact ⟨_, rfl, hcontainer hpush rfl (by simp) (by simp)⟩
  | leftArray =>
    obtain ⟨role, -, hpush⟩ := consumeValue_array.1 h
    exact ⟨_, rfl, hcontainer hpush rfl (by simp) (by simp)⟩
  | string s => exact ⟨_, rfl, hscalar _ (by simp [kindOf, IsScalarKind])⟩
  | number n => exact ⟨_, rfl, hscalar _ (by simp [kindOf, IsScalarKind])⟩
  | true => exact ⟨_, rfl, hscalar _ (by simp [kindOf, IsScalarKind])⟩
  | false => exact ⟨_, rfl, hscalar _ (by simp [kindOf, IsScalarKind])⟩
  | null => exact ⟨_, rfl, hscalar _ (by simp [kindOf, IsScalarKind])⟩
  | rightObject => simp [consumeValue, kindOf] at h
  | rightArray => simp [consumeValue, kindOf] at h
  | colon => simp [consumeValue, kindOf] at h
  | comma => simp [consumeValue, kindOf] at h

/-- A kind without a payload determines the token. -/
theorem token_of_kind {t t' : Token} (h : kindOf t = kindOf t') (hstring : kindOf t' ≠ .string)
    (hnumber : kindOf t' ≠ .number) : t = t' := by
  cases t' <;> cases t <;> first
    | exact absurd rfl hstring
    | exact absurd rfl hnumber
    | rfl
    | cases h

/-- A token that the stack takes is handled. -/
theorem handleToken_of_step {g g' : Grammar} {token : Token} (h : g.step token = .ok g') :
    handleToken (lexerHolding (payload token)) g (kindOf token) = .ok g' := by
  unfold Grammar.step emitToken at h
  split at h
  · cases h
  · exact h

/-- **The reader takes every token the stack takes.** -/
theorem step_follows {g g' : Grammar} {r : Reading} {token : Token} (hf : Follows g r)
    (h : g.step token = .ok g') : ∃ r', r.shift token = some r' ∧ Follows g' r' := by
  replace h := handleToken_of_step h
  obtain ⟨hframes, hstarted, hcomplete⟩ := hf
  unfold handleToken at h
  split at h
  · cases h
  next hopen =>
  have hopen' : g.rootComplete = false := by simpa using hopen
  by_cases hroot : g.rootStarted = true
  swap
  · -- the root is an object
    rw [if_pos hroot] at h
    obtain rfl : r = .value [] := by
      by_contra hne
      exact hroot (hstarted.2 hne)
    split at h
    · cases h
    next hobject =>
      obtain rfl : token = .leftObject := token_of_kind (not_not.1 hobject) (by decide) (by decide)
      obtain ⟨hframes', hstarted', hcomplete'⟩ := sameStack_pushFrame h
      have hempty : g.frames = [] := List.map_eq_nil_iff.1 hframes
      refine ⟨_, rfl, ?_, ?_, ?_⟩
      · rw [hframes']
        simp [shapeOf, hempty, openFrame, shape, waiting]
      · simp [hstarted']
      · simp [hcomplete', hopen']
  rw [if_neg (not_not.2 hroot)] at h
  have hne : r ≠ .value [] := hstarted.1 hroot
  have hdone : ∀ v, r ≠ .complete v := fun v hv ↦ hopen (hcomplete.2 ⟨v, hv⟩)
  cases hstack : g.frames with
  | nil => rw [hstack] at h; cases h
  | cons frame rest =>
  rw [hstack] at h hframes
  dsimp only at h
  unfold handleFrameToken at h
  -- what is shared by the steps that only change the top frame
  have htop : ∀ {frame' : JsonFrame} {r' : Reading},
      (frame'.type, frame'.state) :: shapeOf rest = shape r' → r' ≠ .value [] →
      (∀ v, r' ≠ .complete v) → Follows { g with frames := frame' :: rest } r' := by
    intro frame' r' hshape hvalue hnot
    exact ⟨hshape, by simp [hroot, hvalue], by simp [hopen', hnot]⟩
  cases r with
  | complete v => exact absurd rfl (hdone v)
  | value cs =>
    cases cs with
    | nil => exact absurd rfl hne
    | cons c cs =>
      cases c with
      | item done =>
        obtain ⟨htype, hstate, hrest⟩ := shapeOf_cons.1 hframes
        rw [htype, hstate] at h
        exact follows_value (by simp) (by rw [htype, hrest]; rfl) hroot hopen' h
      | member done k =>
        obtain ⟨htype, hstate, hrest⟩ := shapeOf_cons.1 hframes
        rw [htype, hstate] at h
        exact follows_value (by simp) (by rw [htype, hrest]; rfl) hroot hopen' h
  | itemOrEnd cs =>
    obtain ⟨htype, hstate, hrest⟩ := shapeOf_cons.1 hframes
    rw [htype, hstate] at h
    dsimp only at h
    split at h
    next hclose =>
      obtain rfl : token = .rightArray := token_of_kind hclose (by decide) (by decide)
      exact ⟨_, rfl, follows_close (.array []) hstack hrest hroot hopen' h⟩
    next hnot =>
      have hshift : Reading.shift (.itemOrEnd cs) token = shiftValue (.item [] :: cs) token := by
        cases token <;> first | rfl | exact absurd rfl hnot
      rw [hshift]
      exact follows_value (by simp) (by rw [htype, hrest]; rfl) hroot hopen' h
  | itemEnd items cs =>
    obtain ⟨htype, hstate, hrest⟩ := shapeOf_cons.1 hframes
    rw [htype, hstate] at h
    dsimp only at h
    split at h
    next hcomma =>
      obtain rfl : token = .comma := token_of_kind hcomma (by decide) (by decide)
      cases h
      exact ⟨_, rfl, htop (by rw [hrest]; rfl) (by simp) (by simp)⟩
    next =>
      split at h
      next hclose =>
        obtain rfl : token = .rightArray := token_of_kind hclose (by decide) (by decide)
        exact ⟨_, rfl, follows_close (.array items) hstack hrest hroot hopen' h⟩
      next => cases h
  | nameOrEnd cs =>
    obtain ⟨htype, hstate, hrest⟩ := shapeOf_cons.1 hframes
    rw [htype, hstate] at h
    dsimp only at h
    split at h
    next hclose =>
      obtain rfl : token = .rightObject := token_of_kind hclose (by decide) (by decide)
      exact ⟨_, rfl, follows_close (.object []) hstack hrest hroot hopen' h⟩
    next =>
      obtain ⟨k, rfl, hg⟩ := readKey_ok.1 h
      rw [hg]
      exact ⟨_, rfl, htop (by rw [hrest, show (keyed frame k).type = _ from htype]; rfl) (by simp)
        (by simp)⟩
  | name members cs =>
    obtain ⟨htype, hstate, hrest⟩ := shapeOf_cons.1 hframes
    rw [htype, hstate] at h
    obtain ⟨k, rfl, hg⟩ := readKey_ok.1 h
    rw [hg]
    exact ⟨_, rfl, htop (by rw [hrest, show (keyed frame k).type = _ from htype]; rfl) (by simp)
      (by simp)⟩
  | colon members k cs =>
    obtain ⟨htype, hstate, hrest⟩ := shapeOf_cons.1 hframes
    rw [htype, hstate] at h
    dsimp only at h
    split at h
    · cases h
    next hcolon =>
      obtain rfl : token = .colon := token_of_kind (not_not.1 hcolon) (by decide) (by decide)
      cases h
      exact ⟨_, rfl, htop (by rw [hrest]; rfl) (by simp) (by simp)⟩
  | memberEnd members cs =>
    obtain ⟨htype, hstate, hrest⟩ := shapeOf_cons.1 hframes
    rw [htype, hstate] at h
    dsimp only at h
    split at h
    next hcomma =>
      obtain rfl : token = .comma := token_of_kind hcomma (by decide) (by decide)
      cases h
      exact ⟨_, rfl, htop (by rw [hrest]; rfl) (by simp) (by simp)⟩
    next =>
      split at h
      next hclose =>
        obtain rfl : token = .rightObject := token_of_kind hclose (by decide) (by decide)
        exact ⟨_, rfl, follows_close (.object members) hstack hrest hroot hopen' h⟩
      next => cases h

/-! ### Whole bodies -/

/-- **Every token** that the stack takes is one that the reader takes. -/
theorem run_follows {tokens : List Token} :
    ∀ {g g' : Grammar} {r : Reading}, Follows g r → tokens.foldlM Grammar.step g = .ok g' →
      ∃ r', tokens.foldlM shift r = some r' ∧ Follows g' r' := by
  induction tokens with
  | nil =>
    intro g g' r hf h
    cases h
    exact ⟨r, rfl, hf⟩
  | cons token tokens ih =>
    intro g g' r hf h
    rw [List.foldlM_cons] at h
    cases hstep : g.step token with
    | error e => rw [hstep] at h; cases h
    | ok g₁ =>
      rw [hstep] at h
      obtain ⟨r₁, hr₁, hf₁⟩ := step_follows hf hstep
      obtain ⟨r', hr', hf'⟩ := ih hf₁ h
      exact ⟨r', by rw [List.foldlM_cons, hr₁]; exact hr', hf'⟩

/-- The state after `vibe_usage_parser_init`. -/
theorem follows_grammarInit (targetDateKey : Int32) (timezone : Timezone) (maxBuckets : UInt32) :
    Follows (grammarInit targetDateKey timezone maxBuckets) (.value []) :=
  ⟨rfl, by simp [grammarInit], by simp [grammarInit]⟩

/-- **Only values are accepted.** -/
theorem tokens_of_runTokens {g g' : Grammar} {tokens : List Token} (hf : Follows g (.value []))
    (h : g.runTokens tokens = .ok g') : ∃ v : Value, tokens = v.tokens := by
  unfold Grammar.runTokens at h
  cases hrun : tokens.foldlM Grammar.step g with
  | error e => rw [hrun] at h; cases h
  | ok g₁ =>
    rw [hrun] at h
    obtain ⟨r, hr, hf₁⟩ := run_follows hf hrun
    have hcomplete : g₁.rootComplete = true := by
      replace h : finishGrammar g₁ = .ok g' := h
      unfold finishGrammar at h
      split at h
      · cases h
      next hok => simp only [not_or, not_not] at hok; exact hok.2.1
    obtain ⟨v, rfl⟩ := hf₁.complete.1 hcomplete
    exact ⟨v, Reading.read_iff.1 hr⟩

end VibeUsage
