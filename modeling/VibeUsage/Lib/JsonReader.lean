import VibeUsage.Lib.Json

/-!
# Reading a value from its tokens

A reader that sees one token at a time keeps the containers that are still open, innermost first,
each with what has been read of it. `Reading.shift` takes the next token, and completes every value
whose last token it is.

`shift_tokens` is the invariant that carries soundness: the state remembers exactly the tokens it
has seen. `read_tokens` is completeness: the tokens of a value are read as that value. Together,
`read_iff` says that a token sequence is read as `v` exactly when it is the tokens of `v`, so a
machine that follows the reader accepts nothing but values.
-/

namespace Rfc8259

/-- An open container around an awaited value: what was read of it before that value. -/
inductive Context where
  | item (done : List Value)
  | member (done : List (List UInt8 × Value)) (name : List UInt8)

/-- Where the reader stands between two tokens. -/
inductive Reading where
  | value (open' : List Context)
  | itemOrEnd (open' : List Context)
  | itemEnd (items : List Value) (open' : List Context)
  | nameOrEnd (open' : List Context)
  | name (members : List (List UInt8 × Value)) (open' : List Context)
  | colon (members : List (List UInt8 × Value)) (name : List UInt8) (open' : List Context)
  | memberEnd (members : List (List UInt8 × Value)) (open' : List Context)
  | complete (v : Value)

namespace Reading

/-- The awaited value has come. -/
def plug (v : Value) : List Context → Reading
  | [] => .complete v
  | .item done :: cs => .itemEnd (done ++ [v]) cs
  | .member done k :: cs => .memberEnd (done ++ [(k, v)]) cs

/-- A token at a place where a value is awaited. -/
def shiftValue (cs : List Context) : Token → Option Reading
  | .leftArray => some (.itemOrEnd cs)
  | .leftObject => some (.nameOrEnd cs)
  | .string s => some (plug (.string s) cs)
  | .number n => some (plug (.number n) cs)
  | .true => some (plug (.bool true) cs)
  | .false => some (plug (.bool false) cs)
  | .null => some (plug .null cs)
  | _ => none

/-- Takes the next token. -/
def shift : Reading → Token → Option Reading
  | .value cs, t => shiftValue cs t
  | .itemOrEnd cs, .rightArray => some (plug (.array []) cs)
  | .itemOrEnd cs, t => shiftValue (.item [] :: cs) t
  | .itemEnd items cs, .comma => some (.value (.item items :: cs))
  | .itemEnd items cs, .rightArray => some (plug (.array items) cs)
  | .nameOrEnd cs, .string k => some (.colon [] k cs)
  | .nameOrEnd cs, .rightObject => some (plug (.object []) cs)
  | .name members cs, .string k => some (.colon members k cs)
  | .colon members k cs, .colon => some (.value (.member members k :: cs))
  | .memberEnd members cs, .comma => some (.name members cs)
  | .memberEnd members cs, .rightObject => some (plug (.object members) cs)
  | _, _ => none

/-- A comma after what is there already. -/
def separator {α : Type} : List α → List Token
  | [] => []
  | _ => [.comma]

/-- The tokens read for the open containers. -/
def contextTokens : List Context → List Token
  | [] => []
  | .item done :: cs => contextTokens cs ++ .leftArray :: (itemsTokens done ++ separator done)
  | .member done k :: cs =>
    contextTokens cs ++ .leftObject ::
      (membersTokens done ++ separator done ++ [.string k, .colon])

/-- The tokens read so far. -/
def tokens : Reading → List Token
  | .value cs => contextTokens cs
  | .itemOrEnd cs => contextTokens cs ++ [.leftArray]
  | .itemEnd items cs => contextTokens cs ++ .leftArray :: itemsTokens items
  | .nameOrEnd cs => contextTokens cs ++ [.leftObject]
  | .name members cs => contextTokens cs ++ .leftObject :: (membersTokens members ++ [.comma])
  | .colon members k cs =>
    contextTokens cs ++ .leftObject :: (membersTokens members ++ separator members ++ [.string k])
  | .memberEnd members cs => contextTokens cs ++ .leftObject :: membersTokens members
  | .complete v => v.tokens

/-- No container is left empty where a comma was read. -/
def Proper : Reading → Prop
  | .name members _ => members ≠ []
  | .value (.item done :: _) => done ≠ []
  | .itemEnd items _ => items ≠ []
  | .memberEnd members _ => members ≠ []
  | _ => True

end Reading

/-- One more item. -/
theorem itemsTokens_append (vs : List Value) (v : Value) :
    itemsTokens (vs ++ [v]) = itemsTokens vs ++ Reading.separator vs ++ v.tokens := by
  induction vs with
  | nil => simp [itemsTokens, Reading.separator]
  | cons u vs ih =>
    cases vs with
    | nil => simp [itemsTokens, Reading.separator]
    | cons w vs => simp [itemsTokens, Reading.separator] at ih ⊢; exact ih

/-- One more member. -/
theorem membersTokens_append (ms : List (List UInt8 × Value)) (k : List UInt8) (v : Value) :
    membersTokens (ms ++ [(k, v)]) =
      membersTokens ms ++ Reading.separator ms ++ .string k :: .colon :: v.tokens := by
  induction ms with
  | nil => simp [membersTokens, Reading.separator]
  | cons m ms ih =>
    obtain ⟨k', u⟩ := m
    cases ms with
    | nil => simp [membersTokens, Reading.separator]
    | cons w ms => simp [membersTokens, Reading.separator] at ih ⊢; exact ih

namespace Reading

/-- A value that is put into its place keeps the tokens read so far. -/
theorem tokens_plug (v : Value) (cs : List Context) :
    (plug v cs).tokens = contextTokens cs ++ v.tokens := by
  cases cs with
  | nil => rfl
  | cons c cs =>
    cases c with
    | item done => simp [plug, tokens, contextTokens, itemsTokens_append]
    | member done k => simp [plug, tokens, contextTokens, membersTokens_append]

/-- A reading with a value in its place is proper. -/
theorem proper_plug (v : Value) (cs : List Context) : (plug v cs).Proper := by
  cases cs with
  | nil => trivial
  | cons c cs => cases c <;> simp [plug, Proper]

/-- A comma stands between values. -/
theorem separator_of_ne_nil {α : Type} {l : List α} (h : l ≠ []) : separator l = [.comma] := by
  cases l with
  | nil => exact absurd rfl h
  | cons a l => rfl

/-- **A token** that begins a value is the next one read. -/
theorem tokens_shiftValue {cs : List Context} {t : Token} {r : Reading}
    (h : shiftValue cs t = some r) : r.tokens = contextTokens cs ++ [t] ∧ r.Proper := by
  cases t <;> simp only [shiftValue, Option.some.injEq, reduceCtorEq] at h <;> subst h <;>
    first
      | exact ⟨rfl, trivial⟩
      | exact ⟨tokens_plug _ cs, proper_plug _ cs⟩

/-- **The state remembers the tokens it has seen.** -/
theorem shift_tokens {r r' : Reading} {t : Token} (hr : r.Proper) (h : r.shift t = some r') :
    r'.tokens = r.tokens ++ [t] ∧ r'.Proper := by
  cases r with
  | value cs =>
    have hs : shiftValue cs t = some r' := h
    exact tokens_shiftValue hs
  | itemOrEnd cs =>
    by_cases ht : t = .rightArray
    · subst ht
      obtain rfl := Option.some.inj h
      exact ⟨by rw [tokens_plug]; simp [tokens, Value.tokens, itemsTokens], proper_plug _ _⟩
    -- Not the bracket, so it is the first token of an item.
    · have hs : shiftValue (.item [] :: cs) t = some r' := by
        cases t <;> first | exact absurd rfl ht | exact h
      obtain ⟨htokens, hproper⟩ := tokens_shiftValue hs
      exact ⟨by simpa [contextTokens, itemsTokens, separator, tokens] using htokens, hproper⟩
  | itemEnd items cs =>
    cases t <;> simp only [shift, Option.some.injEq, reduceCtorEq] at h
    · subst h
      exact ⟨by rw [tokens_plug]; simp [tokens, Value.tokens], proper_plug _ _⟩
    · subst h
      exact ⟨by simp [tokens, contextTokens, separator_of_ne_nil hr], hr⟩
  | nameOrEnd cs =>
    cases t <;> simp only [shift, Option.some.injEq, reduceCtorEq] at h
    · subst h
      exact ⟨by rw [tokens_plug]; simp [tokens, Value.tokens, membersTokens], proper_plug _ _⟩
    · subst h
      exact ⟨by simp [tokens, membersTokens, separator], trivial⟩
  | name members cs =>
    cases t <;> simp only [shift, Option.some.injEq, reduceCtorEq] at h
    subst h
    exact ⟨by simp [tokens, separator_of_ne_nil hr], trivial⟩
  | colon members k cs =>
    cases t <;> simp only [shift, Option.some.injEq, reduceCtorEq] at h
    subst h
    exact ⟨by simp [tokens, contextTokens], trivial⟩
  | memberEnd members cs =>
    cases t <;> simp only [shift, Option.some.injEq, reduceCtorEq] at h
    · subst h
      exact ⟨by rw [tokens_plug]; simp [tokens, Value.tokens], proper_plug _ _⟩
    · subst h
      exact ⟨by simp [tokens], hr⟩
  | complete v => cases t <;> cases h

/-- A run of the reader remembers the run's tokens. -/
theorem run_tokens {ts : List Token} :
    ∀ {r r' : Reading}, r.Proper → ts.foldlM shift r = some r' →
      r'.tokens = r.tokens ++ ts ∧ r'.Proper := by
  induction ts with
  | nil =>
    intro r r' hr h
    obtain rfl : r = r' := by simpa using h
    exact ⟨by simp, hr⟩
  | cons t ts ih =>
    intro r r' hr h
    rw [List.foldlM_cons] at h
    obtain ⟨r₁, h₁, h₂⟩ := Option.bind_eq_some_iff.1 h
    obtain ⟨htokens, hproper⟩ := shift_tokens hr h₁
    obtain ⟨htokens', hproper'⟩ := ih hproper h₂
    exact ⟨by rw [htokens', htokens]; simp, hproper'⟩

/-! ### Completeness -/

/-- Reads a token sequence from the start. -/
def read (ts : List Token) : Option Reading := ts.foldlM shift (.value [])

/-- A place where a value is awaited, and its contexts. -/
inductive Awaits : Reading → List Context → Prop where
  | value (cs : List Context) : Awaits (.value cs) cs
  | first (cs : List Context) : Awaits (.itemOrEnd cs) (.item [] :: cs)

/-- Where a value is awaited, a token begins one. -/
theorem shift_awaits {r : Reading} {cs : List Context} {t : Token} (h : Awaits r cs)
    (ht : t ≠ .rightArray) : r.shift t = shiftValue cs t := by
  cases h with
  | value => rfl
  | first => cases t <;> first | exact absurd rfl ht | rfl

/-- A place where a member's name is awaited, after the members already read. -/
inductive AwaitsName : Reading → List (List UInt8 × Value) → List Context → Prop where
  | first (cs : List Context) : AwaitsName (.nameOrEnd cs) [] cs
  | next (done : List (List UInt8 × Value)) (cs : List Context) :
      AwaitsName (.name done cs) done cs

/-- Where a name is awaited, a string is one. -/
theorem shift_awaitsName {r : Reading} {done : List (List UInt8 × Value)} {cs : List Context}
    (h : AwaitsName r done cs) (k : List UInt8) : r.shift (.string k) =
      some (.colon done k cs) := by
  cases h <;> rfl

mutual

/-- The tokens of a value are read as the value, wherever one is awaited. -/
theorem run_value : ∀ (v : Value) {r : Reading} {cs : List Context}, Awaits r cs →
    v.tokens.foldlM shift r = some (plug v cs)
  | .null, r, cs, h => by simp [Value.tokens, shift_awaits h, shiftValue]
  | .bool true, r, cs, h => by simp [Value.tokens, shift_awaits h, shiftValue]
  | .bool false, r, cs, h => by simp [Value.tokens, shift_awaits h, shiftValue]
  | .number n, r, cs, h => by simp [Value.tokens, shift_awaits h, shiftValue]
  | .string s, r, cs, h => by simp [Value.tokens, shift_awaits h, shiftValue]
  | .array [], r, cs, h => by
    have hopen : r.shift .leftArray = some (.itemOrEnd cs) := shift_awaits h (by simp)
    rw [Value.tokens, List.foldlM_cons, hopen]
    rfl
  | .array (v :: vs), r, cs, h => by
    have hopen : r.shift .leftArray = some (.itemOrEnd cs) := shift_awaits h (by simp)
    have hitems := run_items (v :: vs) (by simp) (.first cs)
    rw [Value.tokens, List.foldlM_cons, hopen]
    show (itemsTokens (v :: vs) ++ [Token.rightArray]).foldlM shift (.itemOrEnd cs) = _
    rw [List.foldlM_append, hitems]
    rfl
  | .object [], r, cs, h => by
    have hopen : r.shift .leftObject = some (.nameOrEnd cs) := shift_awaits h (by simp)
    rw [Value.tokens, List.foldlM_cons, hopen]
    rfl
  | .object (m :: ms), r, cs, h => by
    have hopen : r.shift .leftObject = some (.nameOrEnd cs) := shift_awaits h (by simp)
    have hmembers := run_members (m :: ms) (by simp) (.first cs)
    rw [Value.tokens, List.foldlM_cons, hopen]
    show (membersTokens (m :: ms) ++ [Token.rightObject]).foldlM shift (.nameOrEnd cs) = _
    rw [List.foldlM_append, hmembers]
    rfl

/-- **The items of an array** lead to the place after the last. -/
theorem run_items : ∀ (vs : List Value), vs ≠ [] → ∀ {r : Reading} {done : List Value}
    {cs : List Context}, Awaits r (.item done :: cs) →
    (itemsTokens vs).foldlM shift r = some (.itemEnd (done ++ vs) cs)
  | [], hne, _, _, _, _ => absurd rfl hne
  | [v], _, r, done, cs, h => run_value v h
  | v :: u :: vs, _, r, done, cs, h => by
    have hrest := run_items (u :: vs) (by simp) (.value (.item (done ++ [v]) :: cs))
    rw [itemsTokens, List.foldlM_append, run_value v h]
    show (itemsTokens (u :: vs)).foldlM shift (.value (.item (done ++ [v]) :: cs)) = _
    rw [hrest]
    simp

/-- **The members of an object** do so too. -/
theorem run_members : ∀ (ms : List (List UInt8 × Value)), ms ≠ [] → ∀ {r : Reading}
    {done : List (List UInt8 × Value)} {cs : List Context}, AwaitsName r done cs →
    (membersTokens ms).foldlM shift r = some (.memberEnd (done ++ ms) cs)
  | [], hne, _, _, _, _ => absurd rfl hne
  | [(k, v)], _, r, done, cs, h => by
    rw [membersTokens, List.foldlM_cons, shift_awaitsName h]
    exact run_value v (.value (.member done k :: cs))
  | (k, v) :: m :: ms, _, r, done, cs, h => by
    have hvalue := run_value v (.value (.member done k :: cs))
    have hrest := run_members (m :: ms) (by simp) (.next (done ++ [(k, v)]) cs)
    rw [membersTokens, List.foldlM_cons, shift_awaitsName h]
    show (v.tokens ++ _).foldlM shift (.value (.member done k :: cs)) = _
    rw [List.foldlM_append, hvalue]
    show (membersTokens (m :: ms)).foldlM shift (.name (done ++ [(k, v)]) cs) = _
    rw [hrest]
    simp

end

/-- **The reader reads exactly the tokens of values.** -/
theorem read_iff {ts : List Token} {v : Value} :
    read ts = some (.complete v) ↔ ts = v.tokens := by
  constructor
  · intro h
    have htokens := (run_tokens (r := .value []) trivial h).1
    simpa [tokens, contextTokens] using htokens.symm
  · rintro rfl
    exact run_value v (.value [])

end Reading

/-- **A value is determined by its tokens.** -/
theorem Value.tokens_injective {v w : Value} (h : v.tokens = w.tokens) : v = w := by
  have hv := Reading.read_iff.2 (show v.tokens = v.tokens from rfl)
  have hw := Reading.read_iff.2 h
  simpa using hv.symm.trans hw

end Rfc8259
