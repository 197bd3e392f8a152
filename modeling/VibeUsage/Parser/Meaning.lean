import VibeUsage.Parser.Stack

/-!
# What the tokens of a value do to the stack

The stack is followed over the tokens of a whole value. `ValueRuns frame m v` says that, in a frame
that awaits a value, the tokens of `v` do what `m` does to the rest of the state, provided that the
value fits: its numbers are short enough, and it is not nested too deeply.

`m` is the meaning of the value there. The frames of an array or an object are gone when it is
closed, so meanings never mention the stack: they are the functions `bucketMember`, `bucketItem` and
`rootMember` on the fields the response fills. The induction over values is done once, for values
nobody looks at (`ignored`); the members of a bucket and of the root are instances of
`runs_members`.
-/

namespace VibeUsage

open Rfc8259 (Token Value IsNumber itemsTokens membersTokens itemsDepth membersDepth)

/-- The tokens lead from `g` to `g'`. -/
def Runs (g : Grammar) (tokens : List Token) (g' : Grammar) : Prop :=
  tokens.foldlM Grammar.step g = .ok g'

/-- No token leads nowhere else. -/
theorem runs_nil {g g' : Grammar} : Runs g [] g' ↔ g' = g := by
  unfold Runs
  simp only [List.foldlM_nil, pure, Except.pure, Except.ok.injEq]
  exact eq_comm

/-- One token, and the others from there. -/
theorem runs_cons {g g' : Grammar} {token : Token} {tokens : List Token} :
    Runs g (token :: tokens) g' ↔ ∃ g₁, g.step token = .ok g₁ ∧ Runs g₁ tokens g' := by
  unfold Runs
  rw [List.foldlM_cons]
  cases g.step token with
  | error e => simp [bind, Except.bind]
  | ok g₁ => simp [bind, Except.bind]

/-- **Tokens are read one after the other.** -/
theorem runs_append {g g' : Grammar} {a b : List Token} :
    Runs g (a ++ b) g' ↔ ∃ g₁, Runs g a g₁ ∧ Runs g₁ b g' := by
  unfold Runs
  rw [List.foldlM_append]
  cases a.foldlM Grammar.step g with
  | error e => simp [bind, Except.bind]
  | ok g₁ => simp [bind, Except.bind]

/-- The state in the middle of a response, with the given frames. -/
def Grammar.under (g : Grammar) (frames : List JsonFrame) : Grammar :=
  { g with frames, rootStarted := true, rootComplete := frames.isEmpty }

@[simp] theorem under_under (g : Grammar) (frames frames' : List JsonFrame) :
    (g.under frames).under frames' = g.under frames' := rfl

@[simp] theorem under_frames (g : Grammar) (frames : List JsonFrame) :
    (g.under frames).frames = frames := rfl

/-! ### Values that fit -/

/-- The numbers among the tokens are numbers, of at most 32 bytes. -/
def NumbersOk (tokens : List Token) : Prop :=
  ∀ n, Token.number n ∈ tokens → n.length ≤ 32 ∧ IsNumber n

/-- The value can be read with `n` containers open around it. -/
def Fits (n : ℕ) (v : Value) : Prop := NumbersOk v.tokens ∧ v.depth + n ≤ parserMaxDepth

theorem numbersOk_nil : NumbersOk [] := by simp [NumbersOk]

/-- The numbers of a sequence are those of its parts. -/
theorem numbersOk_append {a b : List Token} :
    NumbersOk (a ++ b) ↔ NumbersOk a ∧ NumbersOk b := by
  simp only [NumbersOk, List.mem_append]
  constructor
  · intro h
    exact ⟨fun n hn ↦ h n (Or.inl hn), fun n hn ↦ h n (Or.inr hn)⟩
  · rintro ⟨ha, hb⟩ n (hn | hn)
    · exact ha n hn
    · exact hb n hn

theorem numbersOk_cons {t : Token} {ts : List Token} :
    NumbersOk (t :: ts) ↔ (∀ n, t = .number n → n.length ≤ 32 ∧ IsNumber n) ∧ NumbersOk ts := by
  simp only [NumbersOk, List.mem_cons]
  constructor
  · intro h
    exact ⟨fun n hn ↦ h n (Or.inl hn.symm), fun n hn ↦ h n (Or.inr hn)⟩
  · rintro ⟨ht, hts⟩ n (hn | hn)
    · exact ht n hn.symm
    · exact hts n hn

/-- The numbers of an array are those of its items. -/
theorem numbersOk_items {vs : List Value} :
    NumbersOk (itemsTokens vs) ↔ ∀ v ∈ vs, NumbersOk v.tokens := by
  induction vs with
  | nil => simp [itemsTokens, numbersOk_nil]
  | cons v vs ih =>
    cases vs with
    | nil => simp [itemsTokens]
    | cons u vs =>
      rw [itemsTokens, numbersOk_append, numbersOk_cons, ih]
      simp

/-- The numbers of an object are those of its values. -/
theorem numbersOk_members {ms : List (List UInt8 × Value)} :
    NumbersOk (membersTokens ms) ↔ ∀ m ∈ ms, NumbersOk m.2.tokens := by
  induction ms with
  | nil => simp [membersTokens, numbersOk_nil]
  | cons m ms ih =>
    obtain ⟨k, v⟩ := m
    cases ms with
    | nil => simp [membersTokens, numbersOk_cons]
    | cons m' ms =>
      rw [membersTokens, numbersOk_cons, numbersOk_cons, numbersOk_append, numbersOk_cons, ih]
      simp

/-- Items are nested as deeply as the deepest. -/
theorem itemsDepth_le {vs : List Value} {n : ℕ} :
    itemsDepth vs ≤ n ↔ ∀ v ∈ vs, v.depth ≤ n := by
  induction vs with
  | nil => simp [itemsDepth]
  | cons v vs ih => simp [itemsDepth, ih]

/-- So are the values of members. -/
theorem membersDepth_le {ms : List (List UInt8 × Value)} {n : ℕ} :
    membersDepth ms ≤ n ↔ ∀ m ∈ ms, m.2.depth ≤ n := by
  induction ms with
  | nil => simp [membersDepth]
  | cons m ms ih =>
    obtain ⟨k, v⟩ := m
    simp [membersDepth, ih]

/-- An array fits when there is room for it and its items fit inside. -/
theorem fits_array {n : ℕ} {vs : List Value} :
    Fits n (.array vs) ↔ n < parserMaxDepth ∧ ∀ v ∈ vs, Fits (n + 1) v := by
  unfold Fits
  have hdepth : itemsDepth vs + 1 + n ≤ parserMaxDepth ↔
      n < parserMaxDepth ∧ ∀ v ∈ vs, v.depth + (n + 1) ≤ parserMaxDepth := by
    rcases Nat.lt_or_ge n parserMaxDepth with hlt | hge
    · have hle : itemsDepth vs ≤ parserMaxDepth - (n + 1) ↔ _ := itemsDepth_le
      constructor
      · intro h
        exact ⟨hlt, fun v hv ↦ by have := hle.1 (by omega) v hv; omega⟩
      · rintro ⟨-, h⟩
        have := hle.2 fun v hv ↦ by have := h v hv; omega
        omega
    · constructor
      · intro h
        omega
      · rintro ⟨h, -⟩
        omega
  have hnumbers : NumbersOk (Value.array vs).tokens ↔ ∀ v ∈ vs, NumbersOk v.tokens := by
    rw [Value.tokens, numbersOk_cons, numbersOk_append, numbersOk_items]
    simp [NumbersOk]
  rw [hnumbers, Value.depth, hdepth]
  constructor
  · rintro ⟨h₁, h₂, h₃⟩
    exact ⟨h₂, fun v hv ↦ ⟨h₁ v hv, h₃ v hv⟩⟩
  · rintro ⟨h₂, h⟩
    exact ⟨fun v hv ↦ (h v hv).1, h₂, fun v hv ↦ (h v hv).2⟩

/-- So does an object. -/
theorem fits_object {n : ℕ} {ms : List (List UInt8 × Value)} :
    Fits n (.object ms) ↔ n < parserMaxDepth ∧ ∀ m ∈ ms, Fits (n + 1) m.2 := by
  unfold Fits
  have hdepth : membersDepth ms + 1 + n ≤ parserMaxDepth ↔
      n < parserMaxDepth ∧ ∀ m ∈ ms, m.2.depth + (n + 1) ≤ parserMaxDepth := by
    rcases Nat.lt_or_ge n parserMaxDepth with hlt | hge
    · have hle : membersDepth ms ≤ parserMaxDepth - (n + 1) ↔ _ := membersDepth_le
      constructor
      · intro h
        exact ⟨hlt, fun m hm ↦ by have := hle.1 (by omega) m hm; omega⟩
      · rintro ⟨-, h⟩
        have := hle.2 fun m hm ↦ by have := h m hm; omega
        omega
    · constructor
      · intro h
        omega
      · rintro ⟨h, -⟩
        omega
  have hnumbers : NumbersOk (Value.object ms).tokens ↔ ∀ m ∈ ms, NumbersOk m.2.tokens := by
    rw [Value.tokens, numbersOk_cons, numbersOk_append, numbersOk_members]
    simp [NumbersOk]
  rw [hnumbers, Value.depth, hdepth]
  constructor
  · rintro ⟨h₁, h₂, h₃⟩
    exact ⟨h₂, fun m hm ↦ ⟨h₁ m hm, h₃ m hm⟩⟩
  · rintro ⟨h₂, h⟩
    exact ⟨fun m hm ↦ (h m hm).1, h₂, fun m hm ↦ (h m hm).2⟩

/-! ### Steps in a frame -/

/-- A token under a frame is left to the frame, once its number has been checked. -/
theorem step_under {g g' : Grammar} {frame : JsonFrame} {rest : List JsonFrame} {token : Token} :
    (g.under (frame :: rest)).step token = .ok g' ↔
      (∀ n, token = .number n → n.length ≤ 32 ∧ IsNumber n) ∧
      handleFrameToken (lexerHolding (payload token)) (g.under (frame :: rest)) frame rest
        (kindOf token) = .ok g' := by
  have hhandle : ∀ lexer kind, handleToken lexer (g.under (frame :: rest)) kind =
      handleFrameToken lexer (g.under (frame :: rest)) frame rest kind := fun _ _ ↦ rfl
  unfold Grammar.step emitToken
  rw [hhandle]
  cases token with
  | number n =>
    have hwhole : n.length ≤ 32 → n.take (parserTokenBytes - 1) = n := fun h ↦
      List.take_of_length_le (by unfold parserTokenBytes; omega)
    -- `emit_token` checks the length first, which is why it may look at the held bytes only.
    have hcheck : (lexerHolding n).tokenTruncated = true ∨ (lexerHolding n).token.length > 32 ∨
        ¬ jsonNumberValid (lexerHolding n).token = true ↔ ¬ (n.length ≤ 32 ∧ IsNumber n) := by
      show decide (parserTokenBytes ≤ n.length) = true ∨
        (n.take (parserTokenBytes - 1)).length > 32 ∨
        ¬ jsonNumberValid (n.take (parserTokenBytes - 1)) = true ↔ _
      rw [decide_eq_true_eq, List.length_take]
      by_cases hlength : n.length ≤ 32
      · rw [hwhole hlength, jsonNumberValid_iff]
        unfold parserTokenBytes
        constructor
        · rintro (h | h | h) ⟨-, hnumber⟩
          · omega
          · omega
          · exact h hnumber
        · intro h
          exact Or.inr (Or.inr fun hnumber ↦ h ⟨hlength, hnumber⟩)
      · unfold parserTokenBytes
        constructor
        · rintro - ⟨h, -⟩
          exact hlength h
        · intro _
          omega
    simp only [kindOf, payload, Token.number.injEq, forall_eq']
    by_cases hok : n.length ≤ 32 ∧ IsNumber n
    · rw [if_neg fun h ↦ hcheck.1 h.2 hok]
      exact ⟨fun h ↦ ⟨hok, h⟩, fun h ↦ h.2⟩
    · rw [if_pos ⟨trivial, hcheck.2 hok⟩]
      simp [hok]
  | _ => simp [kindOf]

/-- The frame expects a value next. -/
def AwaitsValue (frame : JsonFrame) : Prop :=
  (frame.type = .object ∧ frame.state = .objectValue) ∨
  (frame.type = .array ∧ (frame.state = .arrayValueOrEnd ∨ frame.state = .arrayValueRequired))

/-- The frame with its value read. -/
def JsonFrame.after (frame : JsonFrame) : JsonFrame :=
  { frame with
    state := if frame.type = .object then .objectCommaOrEnd else .arrayCommaOrEnd }

/-- **A token where a value is awaited** opens a container or is a scalar. -/
theorem step_value {g g' : Grammar} {frame : JsonFrame} {rest : List JsonFrame} {token : Token}
    (hframe : AwaitsValue frame) (htoken : kindOf token ≠ .rightArray) :
    (g.under (frame :: rest)).step token = .ok g' ↔
      (∀ n, token = .number n → n.length ≤ 32 ∧ IsNumber n) ∧
      consumeValue (lexerHolding (payload token)) (g.under (frame.after :: rest)) frame.after
        (kindOf token) = .ok g' := by
  obtain ⟨type, state, role, keyTruncated, key⟩ := frame
  rw [step_under]
  rcases hframe with ⟨rfl, rfl⟩ | ⟨rfl, rfl | rfl⟩
  · rfl
  · unfold handleFrameToken
    dsimp only
    rw [if_neg htoken]
    rfl
  · rfl

/-- In a frame that awaits a value, the tokens of `v` do what `m` does. -/
def ValueRuns (frame : JsonFrame) (m : Grammar → Option Grammar) (v : Value) : Prop :=
  ∀ (g : Grammar) (rest : List JsonFrame) (g' : Grammar), rest.length < parserMaxDepth →
    (Runs (g.under (frame :: rest)) v.tokens g' ↔
      Fits (rest.length + 1) v ∧ ∃ g₁, m g = some g₁ ∧ g' = g₁.under (frame.after :: rest))

/-- Closing a container of a role, seen from outside it. -/
def Closes (g : Grammar) (role : Role) (rest : List JsonFrame) (g' : Grammar) : Prop :=
  ∃ g₁, closeRole g role = .ok g₁ ∧ g' = g₁.under rest

/-- What a role does at its end it does to the state, whatever is on the stack. -/
theorem closeRole_under {g g' : Grammar} {role : Role} {frames : List JsonFrame} :
    closeRole (g.under frames) role = .ok g' ↔
      ∃ g₁, closeRole g role = .ok g₁ ∧ g' = g₁.under frames := by
  cases role with
  | ignore => simp [closeRole, eq_comm]
  | root =>
    unfold closeRole
    have hsame : (¬ (g.under frames).seenBuckets = true ∨ ¬ (g.under frames).seenHasAnyData =
      true) =
        (¬ g.seenBuckets = true ∨ ¬ g.seenHasAnyData = true) := rfl
    simp only [hsame]
    split
    · simp
    · simp [eq_comm]
  | bucketsArray => simp [closeRole, Grammar.under, eq_comm]
  | bucket =>
    simp only [closeRole, finishBucket_ok]
    constructor
    · rintro ⟨hseen, hdate, hroom, candidate, hadd, rfl⟩
      exact ⟨{ g with candidate }, ⟨hseen, hdate, hroom, candidate, hadd, rfl⟩, rfl⟩
    · rintro ⟨g₁, ⟨hseen, hdate, hroom, candidate, hadd, rfl⟩, rfl⟩
      exact ⟨hseen, hdate, hroom, candidate, hadd, rfl⟩

/-- A container that is closed leaves the frames around it. -/
theorem closeFrame_under {g g' : Grammar} {frame : JsonFrame} {rest : List JsonFrame}
    {type : FrameType} (htype : frame.type = type) :
    closeFrame (g.under (frame :: rest)) type = .ok g' ↔ Closes g frame.role rest g' := by
  have hclose : closeFrame (g.under (frame :: rest)) type =
      (closeRole (g.under (frame :: rest)) frame.role >>= fun g₁ ↦
        .ok { g₁ with frames := rest, rootComplete := g₁.rootComplete || rest.isEmpty }) := by
    unfold closeFrame
    rw [under_frames]
    exact if_neg (not_not.2 htype)
  rw [hclose]
  unfold Closes
  cases hrole : closeRole (g.under (frame :: rest)) frame.role with
  | error e =>
    simp only [bind, Except.bind, reduceCtorEq, false_iff, not_exists, not_and]
    intro g₁ hok
    rw [closeRole_under.2 ⟨g₁, hok, rfl⟩] at hrole
    cases hrole
  | ok g₂ =>
    obtain ⟨g₁, hok, rfl⟩ := closeRole_under.1 hrole
    simp only [bind, Except.bind, Except.ok.injEq, hok, exists_eq_left']
    rw [eq_comm]
    rfl

/-! ### Containers -/

/-- The frame of an array. -/
def arrayFrame (role : Role) (state : FrameState) : JsonFrame :=
  { openFrame .array role with state }

/-- The state inside a container that has just been opened. -/
def opened (role : Role) (g : Grammar) : Grammar := if role = .bucket then resetBucket g else g

/-- A container's first token, and the rest of it inside. -/
theorem runs_open {g g' : Grammar} {frame : JsonFrame} {rest : List JsonFrame} {token : Token}
    {tokens : List Token} {type : FrameType} (hframe : AwaitsValue frame)
    (htoken : token = .leftObject ∧ type = .object ∨ token = .leftArray ∧ type = .array) :
    Runs (g.under (frame :: rest)) (token :: tokens) g' ↔
      ∃ role, containerRole (g.under (frame.after :: rest)) frame.after (kindOf token) = .ok role ∧
        rest.length + 1 < parserMaxDepth ∧
        Runs ((opened role g).under (openFrame type role :: frame.after :: rest)) tokens g' := by
  -- A bucket starts from cleared fields.
  have hpushed : ∀ role, (if role = Role.bucket
      then resetBucket { g.under (frame.after :: rest) with
        frames := openFrame type role :: frame.after :: rest }
      else { g.under (frame.after :: rest) with
        frames := openFrame type role :: frame.after :: rest }) =
      (opened role g).under (openFrame type role :: frame.after :: rest) := by
    intro role
    unfold opened
    split <;> rfl
  have hstep : ∀ g₁, (g.under (frame :: rest)).step token = .ok g₁ ↔
      ∃ role, containerRole (g.under (frame.after :: rest)) frame.after (kindOf token) =
        .ok role ∧ pushFrame (g.under (frame.after :: rest)) type role = .ok g₁ := by
    intro g₁
    rcases htoken with ⟨rfl, rfl⟩ | ⟨rfl, rfl⟩
    · rw [step_value hframe (by decide)]
      simp only [reduceCtorEq, false_implies, implies_true, true_and]
      exact consumeValue_object
    · rw [step_value hframe (by decide)]
      simp only [reduceCtorEq, false_implies, implies_true, true_and]
      exact consumeValue_array
  rw [runs_cons]
  constructor
  · rintro ⟨g₁, h, hrun⟩
    obtain ⟨role, hrole, hpush⟩ := (hstep g₁).1 h
    obtain ⟨hdepth, hg₁⟩ := pushFrame_ok.1 hpush
    rw [under_frames, hpushed] at hg₁
    subst hg₁
    exact ⟨role, hrole, hdepth, hrun⟩
  · rintro ⟨role, hrole, hdepth, hrun⟩
    refine ⟨_, (hstep _).2 ⟨role, hrole, pushFrame_ok.2 ⟨hdepth, rfl⟩⟩, ?_⟩
    rw [under_frames, hpushed]
    exact hrun

/-- The bracket that ends an array. -/
theorem runs_closeArray {g g' : Grammar} {role : Role} {state : FrameState}
    {rest : List JsonFrame} (hstate : state = .arrayValueOrEnd ∨ state = .arrayCommaOrEnd) :
    Runs (g.under (arrayFrame role state :: rest)) [.rightArray] g' ↔ Closes g role rest g' := by
  rw [runs_cons]
  have hstep : ∀ g₁, (g.under (arrayFrame role state :: rest)).step .rightArray = .ok g₁ ↔
      Closes g role rest g₁ := by
    intro g₁
    have hclose : closeFrame (g.under (arrayFrame role state :: rest)) .array = .ok g₁ ↔
        Closes g role rest g₁ := closeFrame_under rfl
    rw [step_under, ← hclose]
    rcases hstate with rfl | rfl <;> simp [handleFrameToken, arrayFrame, openFrame, kindOf]
  simp only [hstep, runs_nil]
  constructor
  · rintro ⟨g₁, h, rfl⟩
    exact h
  · intro h
    exact ⟨g', h, rfl⟩

/-- **The items of an array**, one meaning after the other, and its closing bracket. -/
theorem runs_items {role : Role} {item : Grammar → Value → Option Grammar} {vs : List Value}
    (H : ∀ v ∈ vs, ∀ state, state = .arrayValueOrEnd ∨ state = .arrayValueRequired →
      ValueRuns (arrayFrame role state) (fun g ↦ item g v) v) (hne : vs ≠ []) :
    ∀ {state : FrameState}, state = .arrayValueOrEnd ∨ state = .arrayValueRequired →
      ∀ (g : Grammar) (rest : List JsonFrame) (g' : Grammar), rest.length < parserMaxDepth →
        (Runs (g.under (arrayFrame role state :: rest)) (itemsTokens vs ++ [.rightArray]) g' ↔
          (∀ v ∈ vs, Fits (rest.length + 1) v) ∧
            ∃ g₁, vs.foldlM item g = some g₁ ∧ Closes g₁ role rest g') := by
  induction vs with
  | nil => exact absurd rfl hne
  | cons v vs ih =>
    intro state hstate g rest g' hdepth
    have hv := H v List.mem_cons_self state hstate
    have hafter : (arrayFrame role state).after = arrayFrame role .arrayCommaOrEnd := rfl
    -- The last item is followed by the bracket, any other by a comma.
    cases vs with
    | nil =>
      simp only [itemsTokens, runs_append, hv g rest _ hdepth, hafter, List.forall_mem_singleton,
        List.foldlM_cons, List.foldlM_nil, bind_pure]
      constructor
      · rintro ⟨_, ⟨hfits, g₁, hg₁, rfl⟩, hclose⟩
        exact ⟨hfits, g₁, hg₁, (runs_closeArray (Or.inr rfl)).1 hclose⟩
      · rintro ⟨hfits, g₁, hg₁, hclose⟩
        exact ⟨_, ⟨hfits, g₁, hg₁, rfl⟩, (runs_closeArray (Or.inr rfl)).2 hclose⟩
    | cons u vs =>
      have hrest := ih (fun w hw ↦ H w (List.mem_cons_of_mem _ hw)) (by simp)
        (show FrameState.arrayValueRequired = .arrayValueOrEnd ∨ _ from Or.inr rfl)
      have hcomma : ∀ g₁ : Grammar,
          (g₁.under (arrayFrame role .arrayCommaOrEnd :: rest)).step .comma =
            .ok (g₁.under (arrayFrame role .arrayValueRequired :: rest)) := by
        intro g₁
        rw [step_under]
        exact ⟨by simp, rfl⟩
      rw [itemsTokens, List.append_assoc, runs_append, List.foldlM_cons, List.forall_mem_cons]
      simp only [hv g rest _ hdepth, hafter, List.cons_append, runs_cons]
      constructor
      · rintro ⟨_, ⟨hfits, g₁, hg₁, rfl⟩, g₂, hstep, hrun⟩
        rw [hcomma] at hstep
        obtain rfl := Except.ok.inj hstep
        obtain ⟨hall, g₂, hg₂, hclose⟩ := (hrest g₁ rest g' hdepth).1 hrun
        exact ⟨⟨hfits, hall⟩, g₂, by rw [hg₁]; exact hg₂, hclose⟩
      · rintro ⟨⟨hfits, hall⟩, g₂, hg₂, hclose⟩
        obtain ⟨g₁, hg₁, hg₂⟩ := Option.bind_eq_some_iff.1 hg₂
        refine ⟨_, ⟨hfits, g₁, hg₁, rfl⟩, _, hcomma g₁, ?_⟩
        exact (hrest g₁ rest g' hdepth).2 ⟨hall, g₂, hg₂, hclose⟩

/-- A whole array, after its opening bracket. -/
theorem runs_array {role : Role} {item : Grammar → Value → Option Grammar} {vs : List Value}
    (H : ∀ v ∈ vs, ∀ state, state = .arrayValueOrEnd ∨ state = .arrayValueRequired →
      ValueRuns (arrayFrame role state) (fun g ↦ item g v) v)
    (g : Grammar) (rest : List JsonFrame) (g' : Grammar) (hdepth : rest.length < parserMaxDepth) :
    Runs (g.under (openFrame .array role :: rest)) (itemsTokens vs ++ [.rightArray]) g' ↔
      (∀ v ∈ vs, Fits (rest.length + 1) v) ∧
        ∃ g₁, vs.foldlM item g = some g₁ ∧ Closes g₁ role rest g' := by
  by_cases hne : vs = []
  · subst hne
    have hclose : Runs (g.under (arrayFrame role .arrayValueOrEnd :: rest)) [.rightArray] g' ↔
        Closes g role rest g' := runs_closeArray (Or.inl rfl)
    rw [show openFrame .array role = arrayFrame role .arrayValueOrEnd from rfl, itemsTokens,
      List.nil_append, hclose]
    simp
  · exact runs_items H hne (Or.inl rfl) g rest g' hdepth

/-! ### Members -/

/-- The frame after a member's name and colon. -/
def valueFrame (frame : JsonFrame) (k : List UInt8) : JsonFrame :=
  { keyed frame k with state := .objectValue }

/-- The frame expects a member's name next. -/
def AwaitsKey (frame : JsonFrame) : Prop :=
  frame.type = .object ∧ (frame.state = .objectKeyOrEnd ∨ frame.state = .objectKeyRequired)

/-- A name and its colon lead to the frame that awaits the value. -/
theorem runs_name {g g' : Grammar} {frame : JsonFrame} {rest : List JsonFrame}
    {k : List UInt8} {tokens : List Token} (hframe : AwaitsKey frame) :
    Runs (g.under (frame :: rest)) (.string k :: .colon :: tokens) g' ↔
      Runs (g.under (valueFrame frame k :: rest)) tokens g' := by
  obtain ⟨type, state, role, keyTruncated, key⟩ := frame
  obtain ⟨rfl, hstate⟩ := hframe
  have hname : (g.under (⟨.object, state, role, keyTruncated, key⟩ :: rest)).step (.string k) =
      .ok (g.under (keyed ⟨.object, state, role, keyTruncated, key⟩ k :: rest)) := by
    rw [step_under]
    refine ⟨by simp, ?_⟩
    rcases hstate with rfl | rfl <;> rfl
  have hcolon : (g.under (keyed ⟨.object, state, role, keyTruncated, key⟩ k :: rest)).step .colon =
      .ok (g.under (valueFrame ⟨.object, state, role, keyTruncated, key⟩ k :: rest)) := by
    rw [step_under]
    exact ⟨by simp, rfl⟩
  simp only [runs_cons, hname, hcolon, Except.ok.injEq, exists_eq_left']

/-- The brace that ends an object. -/
theorem runs_closeObject {g g' : Grammar} {frame : JsonFrame} {rest : List JsonFrame}
    (htype : frame.type = .object)
    (hstate : frame.state = .objectKeyOrEnd ∨ frame.state = .objectCommaOrEnd) :
    Runs (g.under (frame :: rest)) [.rightObject] g' ↔ Closes g frame.role rest g' := by
  rw [runs_cons]
  have hstep : ∀ g₁, (g.under (frame :: rest)).step .rightObject = .ok g₁ ↔
      Closes g frame.role rest g₁ := by
    intro g₁
    rw [step_under, ← closeFrame_under htype]
    obtain ⟨type, state, role, keyTruncated, key⟩ := frame
    obtain rfl := htype
    rcases hstate with rfl | rfl <;> simp [handleFrameToken, kindOf]
  simp only [hstep, runs_nil]
  constructor
  · rintro ⟨g₁, h, rfl⟩
    exact h
  · intro h
    exact ⟨g', h, rfl⟩

/-- A comma between members. -/
theorem step_memberComma {frame : JsonFrame} (htype : frame.type = .object)
    (hstate : frame.state = .objectCommaOrEnd) (g : Grammar) (rest : List JsonFrame) :
    (g.under (frame :: rest)).step .comma =
      .ok (g.under ({ frame with state := .objectKeyRequired } :: rest)) := by
  obtain ⟨type, state, role, keyTruncated, key⟩ := frame
  obtain rfl := htype
  obtain rfl := hstate
  rw [step_under]
  exact ⟨by simp, rfl⟩

/-- **The members of an object**, one meaning after the other, and its closing brace. -/
theorem runs_members {role : Role} {member : Grammar → List UInt8 → Value → Option Grammar}
    {ms : List (List UInt8 × Value)}
    (H : ∀ m ∈ ms, ∀ frame : JsonFrame, frame.type = .object → frame.role = role →
      ValueRuns (valueFrame frame m.1) (fun g ↦ member g m.1 m.2) m.2) (hne : ms ≠ []) :
    ∀ {frame : JsonFrame}, AwaitsKey frame → frame.role = role →
      ∀ (g : Grammar) (rest : List JsonFrame) (g' : Grammar), rest.length < parserMaxDepth →
        (Runs (g.under (frame :: rest)) (membersTokens ms ++ [.rightObject]) g' ↔
          (∀ m ∈ ms, Fits (rest.length + 1) m.2) ∧
            ∃ g₁, ms.foldlM (fun g m ↦ member g m.1 m.2) g = some g₁ ∧
              Closes g₁ role rest g') := by
  induction ms with
  | nil => exact absurd rfl hne
  | cons m ms ih =>
    obtain ⟨k, v⟩ := m
    intro frame hframe hrole g rest g' hdepth
    have hv := H (k, v) List.mem_cons_self frame hframe.1 hrole
    have htype : (valueFrame frame k).after.type = .object := hframe.1
    have hstate : (valueFrame frame k).after.state = .objectCommaOrEnd := if_pos hframe.1
    -- The last member is followed by the brace, any other by a comma.
    cases ms with
    | nil =>
      rw [membersTokens, List.cons_append, List.cons_append, runs_name hframe, runs_append]
      simp only [hv g rest _ hdepth, List.forall_mem_singleton, List.foldlM_cons,
        List.foldlM_nil, bind_pure]
      have hclose : ∀ g₁ : Grammar,
          Runs (g₁.under ((valueFrame frame k).after :: rest)) [.rightObject] g' ↔
            Closes g₁ role rest g' := by
        intro g₁
        rw [← hrole]
        exact runs_closeObject htype (Or.inr hstate)
      constructor
      · rintro ⟨_, ⟨hfits, g₁, hg₁, rfl⟩, hrun⟩
        exact ⟨hfits, g₁, hg₁, (hclose g₁).1 hrun⟩
      · rintro ⟨hfits, g₁, hg₁, hrun⟩
        exact ⟨_, ⟨hfits, g₁, hg₁, rfl⟩, (hclose g₁).2 hrun⟩
    | cons m' ms =>
      have hnext : AwaitsKey { (valueFrame frame k).after with state := .objectKeyRequired } :=
        ⟨htype, Or.inr rfl⟩
      have hrest := ih (fun w hw ↦ H w (List.mem_cons_of_mem _ hw)) (by simp) hnext hrole
      have hcomma : ∀ g₁ : Grammar,
          (g₁.under ((valueFrame frame k).after :: rest)).step .comma =
            .ok (g₁.under
              ({ (valueFrame frame k).after with state := .objectKeyRequired } :: rest)) := by
        exact fun g₁ ↦ step_memberComma htype hstate g₁ rest
      rw [membersTokens, List.cons_append, List.cons_append, runs_name hframe, List.append_assoc,
        runs_append, List.foldlM_cons, List.forall_mem_cons]
      simp only [hv g rest _ hdepth, List.cons_append, runs_cons]
      constructor
      · rintro ⟨_, ⟨hfits, g₁, hg₁, rfl⟩, g₂, hstep, hrun⟩
        rw [hcomma] at hstep
        obtain rfl := Except.ok.inj hstep
        obtain ⟨hall, g₂, hg₂, hclose⟩ := (hrest g₁ rest g' hdepth).1 hrun
        exact ⟨⟨hfits, hall⟩, g₂, by rw [hg₁]; exact hg₂, hclose⟩
      · rintro ⟨⟨hfits, hall⟩, g₂, hg₂, hclose⟩
        obtain ⟨g₁, hg₁, hg₂⟩ := Option.bind_eq_some_iff.1 hg₂
        refine ⟨_, ⟨hfits, g₁, hg₁, rfl⟩, _, hcomma g₁, ?_⟩
        exact (hrest g₁ rest g' hdepth).2 ⟨hall, g₂, hg₂, hclose⟩

/-- A whole object, after its opening brace. -/
theorem runs_object {role : Role} {member : Grammar → List UInt8 → Value → Option Grammar}
    {ms : List (List UInt8 × Value)}
    (H : ∀ m ∈ ms, ∀ frame : JsonFrame, frame.type = .object → frame.role = role →
      ValueRuns (valueFrame frame m.1) (fun g ↦ member g m.1 m.2) m.2)
    (g : Grammar) (rest : List JsonFrame) (g' : Grammar) (hdepth : rest.length < parserMaxDepth) :
    Runs (g.under (openFrame .object role :: rest)) (membersTokens ms ++ [.rightObject]) g' ↔
      (∀ m ∈ ms, Fits (rest.length + 1) m.2) ∧
        ∃ g₁, ms.foldlM (fun g m ↦ member g m.1 m.2) g = some g₁ ∧ Closes g₁ role rest g' := by
  by_cases hne : ms = []
  · subst hne
    rw [membersTokens, List.nil_append, runs_closeObject rfl (Or.inl rfl)]
    simp [openFrame]
  · exact runs_members H hne ⟨rfl, Or.inl rfl⟩ rfl g rest g' hdepth

/-! ### Scalars, and values nobody looks at -/

/-- The token of a value that is one token. -/
def scalarToken? : Value → Option Token
  | .null => some .null
  | .bool true => some .true
  | .bool false => some .false
  | .number n => some (.number n)
  | .string s => some (.string s)
  | _ => none

/-- A scalar is one token, and no container. -/
theorem scalarToken?_eq_some {v : Value} {t : Token} (h : scalarToken? v = some t) :
    v.tokens = [t] ∧ v.depth = 0 ∧ IsScalarKind (kindOf t) := by
  unfold IsScalarKind
  cases v with
  | bool b =>
    cases b <;> (obtain rfl := Option.some.inj h; simp [Value.tokens, Value.depth, kindOf])
  | array vs => cases h
  | object ms => cases h
  | _ => obtain rfl := Option.some.inj h; simp [Value.tokens, Value.depth, kindOf]

/-- **A scalar** is handled by its place in the schema. -/
theorem runs_scalar {g g' : Grammar} {frame : JsonFrame} {rest : List JsonFrame} {v : Value}
    {t : Token} (ht : scalarToken? v = some t) (hframe : AwaitsValue frame)
    (hdepth : rest.length < parserMaxDepth) :
    Runs (g.under (frame :: rest)) v.tokens g' ↔
      Fits (rest.length + 1) v ∧ frame.role ≠ .bucketsArray ∧
        handleScalar (lexerHolding (payload t)) (g.under (frame.after :: rest)) frame.after
          (kindOf t) = .ok g' := by
  obtain ⟨htokens, hzero, hkind⟩ := scalarToken?_eq_some ht
  have hbracket : kindOf t ≠ .rightArray := by
    rcases hkind with h | h | h | h | h <;> rw [h] <;> decide
  have hfits : Fits (rest.length + 1) v ↔
      ∀ n, t = .number n → n.length ≤ 32 ∧ IsNumber n := by
    unfold Fits
    rw [htokens, hzero, numbersOk_cons]
    have hle : rest.length + 1 ≤ parserMaxDepth := hdepth
    simp [numbersOk_nil, hle]
  rw [htokens, runs_cons, hfits]
  simp only [step_value hframe hbracket, consumeValue_scalar hkind, runs_nil]
  constructor
  · rintro ⟨g₁, ⟨hnumber, hrole, hok⟩, rfl⟩
    exact ⟨hnumber, hrole, hok⟩
  · rintro ⟨hnumber, hrole, hok⟩
    exact ⟨g', ⟨hnumber, hrole, hok⟩, rfl⟩

/-- Nothing looks at the value this frame awaits. -/
structure Ignores (frame : JsonFrame) : Prop where
  awaits : AwaitsValue frame
  role : frame.role ≠ .bucketsArray
  container : ∀ g kind, containerRole g frame.after kind = .ok .ignore
  scalar : ∀ lexer g kind, handleScalar lexer g frame.after kind = .ok g

/-- The role of a frame says that nothing looks at what it awaits. -/
theorem ignores_of_role {frame : JsonFrame} (hframe : AwaitsValue frame)
    (hrole : frame.role = .ignore) : Ignores frame := by
  have hafter : frame.after.role = .ignore := hrole
  refine ⟨hframe, by simp [hrole], fun g kind ↦ ?_, fun lexer g kind ↦ ?_⟩
  · rw [containerRole, hafter]
  · rw [handleScalar, hafter]

/-- An array awaits a value after its bracket and after a comma. -/
theorem awaitsValue_arrayFrame {role : Role} {state : FrameState}
    (h : state = .arrayValueOrEnd ∨ state = .arrayValueRequired) :
    AwaitsValue (arrayFrame role state) :=
  Or.inr ⟨rfl, h⟩

/-- An object awaits a value after a name and its colon. -/
theorem awaitsValue_valueFrame {frame : JsonFrame} (h : frame.type = .object)
    (k : List UInt8) : AwaitsValue (valueFrame frame k) :=
  Or.inl ⟨h, rfl⟩

/-- A container that was ignored leaves the state as it is. -/
theorem closes_ignore {g g' : Grammar} {rest : List JsonFrame} :
    Closes g .ignore rest g' ↔ g' = g.under rest := by
  simp [Closes, closeRole]

/-- A scalar that is ignored changes nothing. -/
theorem valueRuns_scalar {frame : JsonFrame} {v : Value} {t : Token}
    (ht : scalarToken? v = some t) (h : Ignores frame) : ValueRuns frame some v := by
  intro g rest g' hdepth
  rw [runs_scalar ht h.awaits hdepth, h.scalar]
  simp [h.role, eq_comm]

/-- Steps that change nothing change nothing. -/
theorem foldlM_some {α β : Type} (g : β) (l : List α) :
    l.foldlM (fun g _ ↦ some g) g = some g := by
  induction l with
  | nil => rfl
  | cons a l ih => exact ih

mutual

/-- **A value nobody looks at** leaves everything but the stack as it is. -/
theorem ignored : ∀ (v : Value) {frame : JsonFrame}, Ignores frame → ValueRuns frame some v
  | .null, frame, h => valueRuns_scalar rfl h
  | .bool true, frame, h => valueRuns_scalar rfl h
  | .bool false, frame, h => valueRuns_scalar rfl h
  | .number n, frame, h => valueRuns_scalar rfl h
  | .string s, frame, h => valueRuns_scalar rfl h
  | .array vs, frame, h => by
    intro g rest g' hdepth
    have hitems : ∀ v ∈ vs, ∀ state,
        state = FrameState.arrayValueOrEnd ∨ state = FrameState.arrayValueRequired →
        ValueRuns (arrayFrame .ignore state) some v := fun v hv state hstate ↦
      ignoredItems vs v hv (ignores_of_role (awaitsValue_arrayFrame hstate) rfl)
    rw [Value.tokens, runs_open h.awaits (Or.inr ⟨rfl, rfl⟩), fits_array]
    simp only [h.container, Except.ok.injEq, exists_eq_left']
    have hinside := @runs_array .ignore (fun g _ ↦ some g) vs hitems g (frame.after :: rest) g'
    constructor
    · rintro ⟨hlt, hrun⟩
      obtain ⟨hfits, g₁, hg₁, hclose⟩ := (hinside hlt).1 hrun
      rw [foldlM_some] at hg₁
      obtain rfl := Option.some.inj hg₁
      exact ⟨⟨hlt, hfits⟩, g, rfl, closes_ignore.1 hclose⟩
    · rintro ⟨⟨hlt, hfits⟩, g₁, hg₁, hg'⟩
      obtain rfl := Option.some.inj hg₁
      exact ⟨hlt, (hinside hlt).2 ⟨hfits, g, foldlM_some g vs, closes_ignore.2 hg'⟩⟩
  | .object ms, frame, h => by
    intro g rest g' hdepth
    have hmembers : ∀ m ∈ ms, ∀ frame : JsonFrame, frame.type = .object →
        frame.role = .ignore → ValueRuns (valueFrame frame m.1) some m.2 :=
      fun m hm frame htype hrole ↦
        ignoredMembers ms m hm (ignores_of_role (awaitsValue_valueFrame htype m.1) hrole)
    rw [Value.tokens, runs_open h.awaits (Or.inl ⟨rfl, rfl⟩), fits_object]
    simp only [h.container, Except.ok.injEq, exists_eq_left']
    have hinside := @runs_object .ignore (fun g _ _ ↦ some g) ms hmembers g (frame.after :: rest) g'
    constructor
    · rintro ⟨hlt, hrun⟩
      obtain ⟨hfits, g₁, hg₁, hclose⟩ := (hinside hlt).1 hrun
      rw [foldlM_some] at hg₁
      obtain rfl := Option.some.inj hg₁
      exact ⟨⟨hlt, hfits⟩, g, rfl, closes_ignore.1 hclose⟩
    · rintro ⟨⟨hlt, hfits⟩, g₁, hg₁, hg'⟩
      obtain rfl := Option.some.inj hg₁
      exact ⟨hlt, (hinside hlt).2 ⟨hfits, g, foldlM_some g ms, closes_ignore.2 hg'⟩⟩

/-- The items of an array that is ignored are ignored. -/
theorem ignoredItems : ∀ (vs : List Value), ∀ v ∈ vs, ∀ {frame : JsonFrame}, Ignores frame →
    ValueRuns frame some v
  | [], v, hv, _, _ => absurd hv List.not_mem_nil
  | u :: vs, v, hv, frame, h => by
    rcases List.mem_cons.1 hv with heq | hv
    · rw [heq]
      exact ignored u h
    · exact ignoredItems vs v hv h

/-- So are the values of an object that is ignored. -/
theorem ignoredMembers : ∀ (ms : List (List UInt8 × Value)), ∀ m ∈ ms,
    ∀ {frame : JsonFrame}, Ignores frame → ValueRuns frame some m.2
  | [], m, hm, _, _ => absurd hm List.not_mem_nil
  | (k, u) :: ms, m, hm, frame, h => by
    rcases List.mem_cons.1 hm with heq | hm
    · rw [heq]
      exact ignored u h
    · exact ignoredMembers ms m hm h

end

end VibeUsage
