import VibeUsage.Parser.Meaning

/-!
# What a response does to the candidate

The meanings of the places the schema looks at: the members of a bucket, the items of the bucket
array, and the members of the root. Each is compared with the handlers of the source for the scalars
and with the roles of containers, and the response as a whole is `runTokens_object`.

`bucketMember`, `bucketItem` and `rootMember` say in terms of values what the handlers do token by
token (`bucketMember_runs`, `bucketItem_runs`, `rootMember_runs`). From here on the proofs are about
values and not about tokens.
-/

namespace VibeUsage

open Rfc8259 (Token Value)

/-! ### The meanings -/

/-- A member of a bucket. A name of the schema must come once and with its own kind of value. -/
def bucketMember (g : Grammar) (k : List UInt8) (v : Value) : Option Grammar :=
  if k = keySource.bytes then
    match v with
    | .string s =>
      if g.bucketSeenSource ∨ 0 ∈ s.take (parserTokenBytes - 1) ∨ s = [] then none
      else if s.length ≥ sourceIdBytes then
        some { g with
          bucketSeenSource := true, bucketSourceOther := true, bucketSource := otherSourceId }
      else some { g with bucketSeenSource := true, bucketSource := .ofBytes s }
    | _ => none
  else if k = keyBucketStart.bytes then
    match v with
    | .string s =>
      if g.bucketSeenStart ∨ 0 ∈ s ∨ s = [] ∨ s.length ≥ bucketStartBytes then none
      else some { g with bucketSeenStart := true, bucketStart := .ofBytes s }
    | _ => none
  else if k = keyTotalTokens.bytes then
    match v with
    | .number n =>
      if g.bucketSeenTotal then none
      else
        match parseU64Digits n 0 with
        | .ok total => some { g with bucketSeenTotal := true, bucketTotal := UInt64.ofNat total }
        | .error _ => none
    | _ => none
  else some g

/-- An item of the bucket array: an object, closed by `finish_bucket`. -/
def bucketItem (g : Grammar) (v : Value) : Option Grammar :=
  match v with
  | .object ms => do
    let g ← ms.foldlM (fun g m ↦ bucketMember g m.1 m.2) (resetBucket g)
    (finishBucket g).toOption
  | _ => none

/-- A member of the root. -/
def rootMember (g : Grammar) (k : List UInt8) (v : Value) : Option Grammar :=
  if k = keyBuckets.bytes then
    match v with
    | .array vs =>
      if g.seenBuckets then none
      else (vs.foldlM bucketItem g).map fun g ↦ { g with seenBuckets := true }
    | _ => none
  else if k = keyHasAnyData.bytes then
    match v with
    | .bool b =>
      if g.seenHasAnyData then none
      else some { g with seenHasAnyData := true, rootHasAnyData := b }
    | _ => none
  else if k ∈ paginationKeys.map CString.bytes then none
  else some g

/-! ### Names -/

/-- A frame's name is a key exactly when it was spelled so: a name that was cut or that has a NUL in
it is no key. -/
theorem keyIs_after {frame : JsonFrame} {k : List UInt8} {key : CString}
    (hkey : key.bytes.length < frameKeyBytes) :
    keyIs (valueFrame frame k).after key = true ↔ k = key.bytes := by
  have hkeyed : keyIs (valueFrame frame k).after key = keyIs (keyed frame k) key := rfl
  rw [hkeyed]
  unfold keyIs keyed
  dsimp only
  unfold frameKeyBytes at hkey ⊢
  unfold parserTokenBytes
  by_cases hlong : k.length ≥ 40
  · simp only [hlong, decide_true, Bool.or_true, Bool.not_true, Bool.false_and,
      Bool.false_eq_true, false_iff]
    rintro rfl
    omega
  · have hwhole : k.take (1025 - 1) = k := List.take_of_length_le (by omega)
    have hshort : ¬ 1025 ≤ k.length := by omega
    simp only [hwhole, hlong, hshort, decide_false, Bool.false_or, Bool.or_false]
    by_cases hnul : 0 ∈ k
    · have hcontains : k.contains 0 = true := by simpa using hnul
      simp only [hcontains, Bool.not_true, Bool.false_and, Bool.false_eq_true, false_iff]
      rintro rfl
      exact key.noNul hnul
    · have hcontains : k.contains 0 = false := by simpa using hnul
      simp only [hcontains, Bool.not_false, Bool.true_and, Bool.false_eq_true, if_false,
        decide_eq_true_eq, CString.ext_iff', CString.ofBytes_bytes_of_noNul hnul]

/-- The same, as the value of the comparison. -/
theorem keyIs_after_eq {frame : JsonFrame} {k : List UInt8} {key : CString}
    (hkey : key.bytes.length < frameKeyBytes) :
    keyIs (valueFrame frame k).after key = decide (k = key.bytes) := by
  rw [Bool.eq_iff_iff, keyIs_after hkey, decide_eq_true_eq]

/-- A name that announces more pages. -/
theorem keyIsPagination_after {frame : JsonFrame} {k : List UInt8} :
    keyIsPagination (valueFrame frame k).after = decide (k ∈ paginationKeys.map CString.bytes) := by
  have hlength : ∀ key ∈ paginationKeys, key.bytes.length < frameKeyBytes := by decide
  rw [Bool.eq_iff_iff, decide_eq_true_eq, keyIsPagination, List.any_eq_true, List.mem_map]
  constructor
  · rintro ⟨key, hmem, hkey⟩
    exact ⟨key, hmem, ((keyIs_after (hlength key hmem)).1 hkey).symm⟩
  · rintro ⟨key, hmem, hkey⟩
    exact ⟨key, hmem, (keyIs_after (hlength key hmem)).2 hkey.symm⟩

section Keys

variable {frame : JsonFrame} {k : List UInt8}

theorem keyIs_buckets :
    keyIs (valueFrame frame k).after keyBuckets = decide (k = keyBuckets.bytes) :=
  keyIs_after_eq (by decide)

theorem keyIs_hasAnyData :
    keyIs (valueFrame frame k).after keyHasAnyData = decide (k = keyHasAnyData.bytes) :=
  keyIs_after_eq (by decide)

theorem keyIs_source :
    keyIs (valueFrame frame k).after keySource = decide (k = keySource.bytes) :=
  keyIs_after_eq (by decide)

theorem keyIs_bucketStart :
    keyIs (valueFrame frame k).after keyBucketStart = decide (k = keyBucketStart.bytes) :=
  keyIs_after_eq (by decide)

theorem keyIs_totalTokens :
    keyIs (valueFrame frame k).after keyTotalTokens = decide (k = keyTotalTokens.bytes) :=
  keyIs_after_eq (by decide)

end Keys

/-! ### Members of a bucket -/

/-- The values and the tokens of a kind that has text. -/
def textForm : TokenKind → Option ((List UInt8 → Value) × (List UInt8 → Token))
  | .string => some (.string, .string)
  | .number => some (.number, .number)
  | _ => none

/-- A string is a text in quotes. -/
theorem textForm_string : textForm .string = some (.string, .string) := rfl

/-- A number is a text without. -/
theorem textForm_number : textForm .number = some (.number, .number) := rfl

/-- A place that takes one kind only, strings or numbers. -/
theorem scalar_of_kind {v : Value} {t : Token} (ht : scalarToken? v = some t) {kind : TokenKind}
    {value : List UInt8 → Value} {token : List UInt8 → Token}
    (hform : textForm kind = some (value, token)) :
    (kindOf t = kind ∧ ∃ s, v = value s ∧ t = token s) ∨
      (kindOf t ≠ kind ∧ ∀ s, v ≠ value s) := by
  have hkind : kind = .string ∧ value = .string ∧ token = .string ∨
      kind = .number ∧ value = .number ∧ token = .number := by
    cases kind <;> cases hform
    · exact .inl ⟨rfl, rfl, rfl⟩
    · exact .inr ⟨rfl, rfl, rfl⟩
  cases v with
  | array vs => cases ht
  | object ms => cases ht
  | bool b =>
    rcases hkind with ⟨rfl, rfl, rfl⟩ | ⟨rfl, rfl, rfl⟩ <;> cases b <;> cases ht <;>
      exact .inr ⟨by decide, by simp⟩
  | _ =>
    rcases hkind with ⟨rfl, rfl, rfl⟩ | ⟨rfl, rfl, rfl⟩ <;> cases ht <;> simp [kindOf]

section BucketMember

variable {g g' : Grammar} {frame : JsonFrame} {k : List UInt8} {v : Value} {t : Token}
  {frames : List JsonFrame}

/-- The source of a bucket: a string that is not empty and has no U+0000 that can be seen. -/
theorem bucketSource_iff (ht : scalarToken? v = some t) (hk : k = keySource.bytes) :
    handleBucketScalar (lexerHolding (payload t)) (g.under frames) (valueFrame frame k).after
        (kindOf t) = .ok g' ↔
      ∃ g₁, bucketMember g k v = some g₁ ∧ g' = g₁.under frames := by
  unfold handleBucketScalar bucketMember
  rw [keyIs_source, decide_eq_true hk, if_pos rfl, if_pos hk]
  rcases scalar_of_kind ht textForm_string with ⟨hkind, s, rfl, rfl⟩ | ⟨hkind, hv⟩
  · have hnul : tokenHasEmbeddedNul (lexerHolding s) = true ↔
        0 ∈ s.take (parserTokenBytes - 1) := by
      simp [tokenHasEmbeddedNul, lexerHolding]
    have hempty : (lexerHolding s).tokenTotalLength = 0 ↔ s = [] := List.length_eq_zero_iff
    have hlong : (lexerHolding s).tokenTruncated = true ∨
        (lexerHolding s).tokenTotalLength ≥ sourceIdBytes ↔ s.length ≥ sourceIdBytes := by
      rw [lexerHolding_truncated, lexerHolding_length]
      unfold parserTokenBytes sourceIdBytes
      omega
    have hseen : (g.under frames).bucketSeenSource = g.bucketSeenSource := rfl
    simp only [payload, hkind, ne_eq, not_true_eq_false, or_false, hnul, hempty, hlong, hseen]
    by_cases h₁ : g.bucketSeenSource = true
    · simp [h₁]
    by_cases h₂ : 0 ∈ s.take (parserTokenBytes - 1)
    · simp [h₁, h₂]
    by_cases h₃ : s = []
    · simp [h₁, h₃]
    by_cases h₄ : s.length ≥ sourceIdBytes
    · simp only [h₁, h₂, h₃, h₄, Bool.false_eq_true, or_self, if_false, if_true, Except.ok.injEq,
        Option.some.injEq, exists_eq_left']
      exact eq_comm
    · have hwhole : (lexerHolding s).token = s := by
        refine List.take_of_length_le ?_
        unfold parserTokenBytes
        unfold sourceIdBytes at h₄
        omega
      simp only [h₁, h₂, h₃, h₄, Bool.false_eq_true, or_self, if_false, Except.ok.injEq,
        Option.some.injEq, exists_eq_left', hwhole]
      exact eq_comm
  · simp only [hkind, ne_eq, not_false_eq_true, or_true, if_true, reduceCtorEq, false_iff]
    rintro ⟨g₁, hg₁, -⟩
    cases v <;> first | exact absurd rfl (hv _) | cases hg₁

/-- The start of a bucket: a string of its own. -/
theorem bucketStart_iff (ht : scalarToken? v = some t) (hk : k = keyBucketStart.bytes) :
    handleBucketScalar (lexerHolding (payload t)) (g.under frames) (valueFrame frame k).after
        (kindOf t) = .ok g' ↔
      ∃ g₁, bucketMember g k v = some g₁ ∧ g' = g₁.under frames := by
  have hsource : k ≠ keySource.bytes := by rw [hk]; decide
  unfold handleBucketScalar bucketMember
  rw [keyIs_source, keyIs_bucketStart, decide_eq_false hsource, decide_eq_true hk,
    if_neg Bool.false_ne_true, if_pos rfl, if_neg hsource, if_pos hk]
  rcases scalar_of_kind ht textForm_string with ⟨hkind, s, rfl, rfl⟩ | ⟨hkind, hv⟩
  · have hbad : ((g.under frames).bucketSeenStart = true ∨ kindOf (.string s) ≠ .string ∨
        tokenHasEmbeddedNul (lexerHolding s) = true ∨ (lexerHolding s).tokenTruncated = true ∨
        (lexerHolding s).tokenTotalLength = 0 ∨
        (lexerHolding s).tokenTotalLength ≥ bucketStartBytes) ↔
        (g.bucketSeenStart = true ∨ 0 ∈ s ∨ s = [] ∨ s.length ≥ bucketStartBytes) := by
      have hseen : (g.under frames).bucketSeenStart = g.bucketSeenStart := rfl
      simp only [hseen, hkind, ne_eq, not_true_eq_false, false_or, lexerHolding_token,
        lexerHolding_truncated, lexerHolding_length, tokenHasEmbeddedNul,
        List.contains_iff_mem, List.length_eq_zero_iff, parserTokenBytes, bucketStartBytes]
      by_cases hlong : s.length ≥ 65
      · simp [hlong]
      · have hwhole : s.take (1025 - 1) = s := List.take_of_length_le (by omega)
        have hshort : ¬ 1025 ≤ s.length := by omega
        simp [hwhole, hshort]
    simp only [payload, hbad]
    by_cases h : g.bucketSeenStart = true ∨ 0 ∈ s ∨ s = [] ∨ s.length ≥ bucketStartBytes
    · simp [h]
    · have hwhole : (lexerHolding s).token = s := by
        refine List.take_of_length_le ?_
        have hlength : ¬ s.length ≥ bucketStartBytes := fun hl ↦ h (Or.inr (Or.inr (Or.inr hl)))
        unfold parserTokenBytes
        unfold bucketStartBytes at hlength
        omega
      simp only [h, if_false, Except.ok.injEq, Option.some.injEq, exists_eq_left', hwhole]
      exact eq_comm
  · simp only [hkind, ne_eq, not_false_eq_true, true_or, or_true, if_true, reduceCtorEq, false_iff]
    rintro ⟨g₁, hg₁, -⟩
    cases v <;> first | exact absurd rfl (hv _) | cases hg₁

/-- The tokens of a bucket: digits below 2 to the 64th. -/
theorem totalTokens_iff (ht : scalarToken? v = some t)
    (hnumber : ∀ n, t = .number n → n.length ≤ 32 ∧ Rfc8259.IsNumber n)
    (hk : k = keyTotalTokens.bytes) :
    handleBucketScalar (lexerHolding (payload t)) (g.under frames) (valueFrame frame k).after
        (kindOf t) = .ok g' ↔
      ∃ g₁, bucketMember g k v = some g₁ ∧ g' = g₁.under frames := by
  have hsource : k ≠ keySource.bytes := by rw [hk]; decide
  have hstart : k ≠ keyBucketStart.bytes := by rw [hk]; decide
  unfold handleBucketScalar bucketMember
  rw [keyIs_source, keyIs_bucketStart, keyIs_totalTokens, decide_eq_false hsource,
    decide_eq_false hstart, decide_eq_true hk, if_neg Bool.false_ne_true,
    if_neg Bool.false_ne_true, if_pos rfl, if_neg hsource, if_neg hstart, if_pos hk]
  rcases scalar_of_kind ht textForm_number with ⟨hkind, n, rfl, rfl⟩ | ⟨hkind, hv⟩
  · obtain ⟨hlength, hn⟩ := hnumber n rfl
    obtain ⟨c, ds, rfl, -⟩ := exists_cons_of_isNumber hn
    -- A number that got this far is short enough to be held whole.
    have hwhole : (lexerHolding (c :: ds)).token = c :: ds := by
      refine List.take_of_length_le ?_
      unfold parserTokenBytes
      omega
    have hgood : ¬ ((lexerHolding (c :: ds)).tokenTruncated = true ∨
        (lexerHolding (c :: ds)).token.length = 0 ∨
        (lexerHolding (c :: ds)).token.length > 32) := by
      rw [hwhole, lexerHolding_truncated]
      unfold parserTokenBytes
      rw [List.length_cons] at hlength ⊢
      omega
    have hu64 : parseU64Token (lexerHolding (c :: ds)) =
        (parseU64Digits (c :: ds) 0).map UInt64.ofNat := by
      rw [parseU64Token, if_neg hgood, hwhole]
    have hseen : (g.under frames).bucketSeenTotal = g.bucketSeenTotal := rfl
    simp only [payload, hkind, ne_eq, not_true_eq_false, or_false, hseen, hu64]
    by_cases h : g.bucketSeenTotal = true
    · simp [h]
    · simp only [h, Bool.false_eq_true, if_false]
      cases parseU64Digits (c :: ds) 0 with
      | error e => simp [bind, Except.bind, Except.map]
      | ok total =>
        simp only [Except.map, bind, Except.bind, pure, Except.pure, Except.ok.injEq,
          Option.some.injEq, exists_eq_left']
        exact eq_comm
  · simp only [hkind, ne_eq, not_false_eq_true, or_true, if_true, reduceCtorEq, false_iff]
    rintro ⟨g₁, hg₁, -⟩
    cases v <;> first | exact absurd rfl (hv _) | cases hg₁

end BucketMember

/-- A container under a name of a bucket is refused or ignored. -/
theorem containerRole_bucket {g : Grammar} {frame : JsonFrame} {k : List UInt8}
    (hrole : frame.role = .bucket) (kind : TokenKind) :
    containerRole g (valueFrame frame k).after kind =
      if k = keySource.bytes ∨ k = keyBucketStart.bytes ∨ k = keyTotalTokens.bytes then
        .error .schema
      else .ok .ignore := by
  have hafter : (valueFrame frame k).after.role = .bucket := hrole
  rw [containerRole, hafter]
  simp only [keyIs_source, keyIs_bucketStart, keyIs_totalTokens, decide_eq_true_eq]

/-- A bucket's other members are ignored. -/
theorem ignores_bucket {frame : JsonFrame} {k : List UInt8} (htype : frame.type = .object)
    (hrole : frame.role = .bucket) (hsource : k ≠ keySource.bytes)
    (hstart : k ≠ keyBucketStart.bytes) (htotal : k ≠ keyTotalTokens.bytes) :
    Ignores (valueFrame frame k) := by
  have hafter : (valueFrame frame k).after.role = .bucket := hrole
  refine ⟨awaitsValue_valueFrame htype k, ?_, fun g kind ↦ ?_, fun lexer g kind ↦ ?_⟩
  · show frame.role ≠ _
    simp [hrole]
  · rw [containerRole_bucket hrole, if_neg (by tauto)]
  · rw [handleScalar, hafter]
    simp [handleBucketScalar, keyIs_source, keyIs_bucketStart, keyIs_totalTokens, hsource,
      hstart, htotal]

/-- **The members of a bucket** mean what `bucketMember` says. -/
theorem bucketMember_runs {frame : JsonFrame} {k : List UInt8} {v : Value}
    (htype : frame.type = .object) (hrole : frame.role = .bucket) :
    ValueRuns (valueFrame frame k) (fun g ↦ bucketMember g k v) v := by
  -- A member of another name is skipped, whatever its value.
  by_cases hother : k ≠ keySource.bytes ∧ k ≠ keyBucketStart.bytes ∧ k ≠ keyTotalTokens.bytes
  · obtain ⟨hsource, hstart, htotal⟩ := hother
    have hmember : (fun g ↦ bucketMember g k v) = some := by
      funext g
      unfold bucketMember
      rw [if_neg hsource, if_neg hstart, if_neg htotal]
    rw [hmember]
    exact ignored v (ignores_bucket htype hrole hsource hstart htotal)
  have hnamed : k = keySource.bytes ∨ k = keyBucketStart.bytes ∨ k = keyTotalTokens.bytes := by
    tauto
  have hawaits := awaitsValue_valueFrame htype k
  intro g rest g' hdepth
  cases ht : scalarToken? v with
  | some t =>
    have hnumber : Fits (rest.length + 1) v →
        ∀ n, t = .number n → n.length ≤ 32 ∧ Rfc8259.IsNumber n := by
      rintro ⟨hnumbers, -⟩ n rfl
      obtain ⟨htokens, -⟩ := scalarToken?_eq_some ht
      exact hnumbers n (by rw [htokens]; simp)
    have hafter : (valueFrame frame k).after.role = .bucket := hrole
    have hframe : (valueFrame frame k).role ≠ .bucketsArray := by
      show frame.role ≠ _
      simp [hrole]
    rw [runs_scalar ht hawaits hdepth, handleScalar, hafter]
    dsimp only
    refine and_congr_right fun hfits ↦ ?_
    rw [and_iff_right hframe]
    rcases hnamed with hk | hk | hk
    · exact bucketSource_iff ht hk
    · exact bucketStart_iff ht hk
    · exact totalTokens_iff ht (hnumber hfits) hk
  | none =>
    have hnone : bucketMember g k v = none := by
      have hsource : keyBucketStart.bytes ≠ keySource.bytes := by decide
      have htotal : keyTotalTokens.bytes ≠ keySource.bytes := by decide
      have htotal' : keyTotalTokens.bytes ≠ keyBucketStart.bytes := by decide
      unfold bucketMember
      cases v with
      | bool b => cases b <;> cases ht
      | array vs => rcases hnamed with rfl | rfl | rfl <;> simp [hsource, htotal, htotal']
      | object ms => rcases hnamed with rfl | rfl | rfl <;> simp [hsource, htotal, htotal']
      | _ => cases ht
    -- `container_role` refuses a container under one of the three names.
    have hrefused : ¬ Runs (g.under (valueFrame frame k :: rest)) v.tokens g' := by
      cases v with
      | bool b => cases b <;> cases ht
      | array vs =>
        rw [Value.tokens, runs_open hawaits (Or.inr ⟨rfl, rfl⟩)]
        rintro ⟨role, hok, -⟩
        rw [containerRole_bucket hrole, if_pos hnamed] at hok
        cases hok
      | object ms =>
        rw [Value.tokens, runs_open hawaits (Or.inl ⟨rfl, rfl⟩)]
        rintro ⟨role, hok, -⟩
        rw [containerRole_bucket hrole, if_pos hnamed] at hok
        cases hok
      | _ => cases ht
    simp [hrefused, hnone]

/-! ### The bucket array -/

/-- Which error it was does not matter. -/
theorem finishBucket_toOption {g g' : Grammar} :
    (finishBucket g).toOption = some g' ↔ finishBucket g = .ok g' := by
  cases finishBucket g <;> simp [Except.toOption]

/-- **The items of the bucket array** mean what `bucketItem` says. -/
theorem bucketItem_runs {state : FrameState} {v : Value}
    (hstate : state = .arrayValueOrEnd ∨ state = .arrayValueRequired) :
    ValueRuns (arrayFrame .bucketsArray state) (fun g ↦ bucketItem g v) v := by
  have hawaits : AwaitsValue (arrayFrame .bucketsArray state) := awaitsValue_arrayFrame hstate
  have hrole : ∀ g kind, containerRole g (arrayFrame .bucketsArray state).after kind =
      if kind ≠ .leftObject then .error .schema else .ok .bucket := fun _ _ ↦ rfl
  intro g rest g' hdepth
  cases ht : scalarToken? v with
  | some t =>
    have hnone : bucketItem g v = none := by
      cases v <;> first | rfl | cases ht
    rw [runs_scalar ht hawaits hdepth]
    simp [arrayFrame, openFrame, hnone]
  | none =>
    cases v with
    | bool b => cases b <;> cases ht
    | array vs =>
      rw [Value.tokens, runs_open hawaits (Or.inr ⟨rfl, rfl⟩)]
      simp [hrole, kindOf, bucketItem]
    | object ms =>
      have hinside := @runs_object .bucket bucketMember ms
        (fun m _ frame htype hrole ↦ bucketMember_runs htype hrole) (resetBucket g)
        ((arrayFrame .bucketsArray state).after :: rest) g'
      rw [Value.tokens, runs_open hawaits (Or.inl ⟨rfl, rfl⟩), fits_object]
      simp only [hrole, kindOf, ne_eq, not_true_eq_false, if_false, Except.ok.injEq,
        exists_eq_left', bucketItem, bind, Option.bind_eq_some_iff, finishBucket_toOption]
      constructor
      · rintro ⟨hlt, hrun⟩
        obtain ⟨hfits, g₁, hg₁, g₂, hg₂, rfl⟩ := (hinside hlt).1 hrun
        exact ⟨⟨hlt, hfits⟩, g₂, ⟨g₁, hg₁, hg₂⟩, rfl⟩
      · rintro ⟨⟨hlt, hfits⟩, g₂, ⟨g₁, hg₁, hg₂⟩, hg'⟩
        exact ⟨hlt, (hinside hlt).2 ⟨hfits, g₁, hg₁, g₂, hg₂, hg'⟩⟩
    | _ => cases ht

/-! ### Members of the root -/

/-- A container under a name of the root is the bucket array, or is refused or ignored. -/
theorem containerRole_root {g : Grammar} {frame : JsonFrame} {k : List UInt8}
    (hrole : frame.role = .root) (kind : TokenKind) :
    containerRole g (valueFrame frame k).after kind =
      if k = keyBuckets.bytes then
        if g.seenBuckets ∨ kind ≠ .leftArray then .error .schema else .ok .bucketsArray
      else if k = keyHasAnyData.bytes then .error .schema
      else if k ∈ paginationKeys.map CString.bytes then .error .schema
      else .ok .ignore := by
  have hafter : (valueFrame frame k).after.role = .root := hrole
  rw [containerRole, hafter]
  simp only [keyIs_buckets, keyIs_hasAnyData, keyIsPagination_after, decide_eq_true_eq]

/-- A scalar under a name of the root is the flag, or is refused or ignored. -/
theorem handleScalar_root {lexer : Lexer} {g : Grammar} {frame : JsonFrame} {k : List UInt8}
    (hrole : frame.role = .root) (kind : TokenKind) :
    handleScalar lexer g (valueFrame frame k).after kind =
      if k = keyBuckets.bytes then .error .schema
      else if k ∈ paginationKeys.map CString.bytes then .error .schema
      else if k = keyHasAnyData.bytes then
        if g.seenHasAnyData ∨ (kind ≠ .true ∧ kind ≠ .false) then .error .schema
        else .ok { g with seenHasAnyData := true, rootHasAnyData := kind = .true }
      else .ok g := by
  have hafter : (valueFrame frame k).after.role = .root := hrole
  rw [handleScalar, hafter]
  simp only [handleRootScalar, keyIs_buckets, keyIs_hasAnyData, keyIsPagination_after,
    decide_eq_true_eq]

section RootMember

variable {frame : JsonFrame} {k : List UInt8} {v : Value}

/-- A value refused where it stands. -/
theorem valueRuns_refused {m : Grammar → Option Grammar} (hm : ∀ g, m g = none)
    (hframe : AwaitsValue frame)
    (hscalar : ∀ lexer g kind g', handleScalar lexer g frame.after kind ≠ .ok g')
    (hcontainer : ∀ g kind role, containerRole g frame.after kind ≠ .ok role) :
    ValueRuns frame m v := by
  intro g rest g' hdepth
  have hrefused : ¬ Runs (g.under (frame :: rest)) v.tokens g' := by
    cases ht : scalarToken? v with
    | some t =>
      rw [runs_scalar ht hframe hdepth]
      rintro ⟨-, -, hok⟩
      exact hscalar _ _ _ _ hok
    | none =>
      cases v with
      | bool b => cases b <;> cases ht
      | array vs =>
        rw [Value.tokens, runs_open hframe (Or.inr ⟨rfl, rfl⟩)]
        rintro ⟨role, hok, -⟩
        exact hcontainer _ _ _ hok
      | object ms =>
        rw [Value.tokens, runs_open hframe (Or.inl ⟨rfl, rfl⟩)]
        rintro ⟨role, hok, -⟩
        exact hcontainer _ _ _ hok
      | _ => cases ht
  simp [hrefused, hm]

/-- The bucket array comes once. -/
theorem rootBuckets_runs (htype : frame.type = .object) (hrole : frame.role = .root)
    (hk : k = keyBuckets.bytes) :
    ValueRuns (valueFrame frame k) (fun g ↦ rootMember g k v) v := by
  have hawaits := awaitsValue_valueFrame htype k
  intro g rest g' hdepth
  have hmember : rootMember g k v = match v with
      | .array vs => if g.seenBuckets then none
        else (vs.foldlM bucketItem g).map fun g ↦ { g with seenBuckets := true }
      | _ => none := by
    unfold rootMember
    rw [if_pos hk]
  dsimp only
  rw [hmember]
  cases ht : scalarToken? v with
  | some t =>
    rw [runs_scalar ht hawaits hdepth, handleScalar_root hrole, if_pos hk]
    cases v <;> first | (cases ht; done) | simp
  | none =>
    cases v with
    | bool b => cases b <;> cases ht
    | object ms =>
      rw [Value.tokens, runs_open hawaits (Or.inl ⟨rfl, rfl⟩)]
      simp [containerRole_root hrole, hk, kindOf]
    | array vs =>
      rw [Value.tokens, runs_open hawaits (Or.inr ⟨rfl, rfl⟩), fits_array]
      have hseen : (g.under ((valueFrame frame k).after :: rest)).seenBuckets = g.seenBuckets := rfl
      simp only [containerRole_root hrole, hk, if_true, kindOf, ne_eq, not_true_eq_false,
        or_false]
      rw [← hk, hseen]
      -- A second array is a schema error.
      by_cases h : g.seenBuckets = true
      · simp [h]
      · have hinside := @runs_array .bucketsArray bucketItem vs
          (fun u _ state hstate ↦ bucketItem_runs hstate) g
          ((valueFrame frame k).after :: rest) g'
        simp only [h, Bool.false_eq_true, if_false, Except.ok.injEq, exists_eq_left',
          Option.map_eq_some_iff]
        constructor
        · rintro ⟨hlt, hrun⟩
          obtain ⟨hfits, g₁, hg₁, g₂, hg₂, rfl⟩ := (hinside hlt).1 hrun
          obtain rfl := Except.ok.inj hg₂
          exact ⟨⟨hlt, hfits⟩, _, ⟨g₁, hg₁, rfl⟩, rfl⟩
        · rintro ⟨⟨hlt, hfits⟩, _, ⟨g₁, hg₁, rfl⟩, hg'⟩
          exact ⟨hlt, (hinside hlt).2 ⟨hfits, g₁, hg₁, _, rfl, hg'⟩⟩
    | _ => cases ht

/-- The flag comes once. -/
theorem rootHasAnyData_runs (htype : frame.type = .object) (hrole : frame.role = .root)
    (hk : k = keyHasAnyData.bytes) :
    ValueRuns (valueFrame frame k) (fun g ↦ rootMember g k v) v := by
  have hbuckets : k ≠ keyBuckets.bytes := by rw [hk]; decide
  have hpage : k ∉ paginationKeys.map CString.bytes := by rw [hk]; decide
  have hawaits := awaitsValue_valueFrame htype k
  intro g rest g' hdepth
  have hmember : rootMember g k v = match v with
      | .bool b => if g.seenHasAnyData then none
        else some { g with seenHasAnyData := true, rootHasAnyData := b }
      | _ => none := by
    unfold rootMember
    rw [if_neg hbuckets, if_pos hk]
  dsimp only
  rw [hmember]
  have hnotarray : frame.role ≠ .bucketsArray := by simp [hrole]
  have hseen : ∀ frames, (g.under frames).seenHasAnyData = g.seenHasAnyData := fun _ ↦ rfl
  cases ht : scalarToken? v with
  | some t =>
    rw [runs_scalar ht hawaits hdepth, handleScalar_root hrole, if_neg hbuckets, if_neg hpage,
      if_pos hk, hseen]
    refine and_congr_right fun _ ↦ ?_
    rw [and_iff_right (show (valueFrame frame k).role ≠ _ from hnotarray)]
    -- A second flag is a schema error.
    by_cases h : g.seenHasAnyData = true
    · cases v <;> simp [h]
    cases v with
    | bool b =>
      cases b <;> (obtain rfl := Option.some.inj ht
                   simp only [h, kindOf, Bool.false_eq_true, false_or, ne_eq, reduceCtorEq,
                     not_false_eq_true, not_true_eq_false, and_false, false_and, if_false,
                     decide_true, decide_false, Except.ok.injEq, Option.some.injEq,
                     exists_eq_left']
                   exact eq_comm)
    | array vs => cases ht
    | object ms => cases ht
    | _ => obtain rfl := Option.some.inj ht; simp [kindOf]
  | none =>
    cases v with
    | bool b => cases b <;> cases ht
    | object ms =>
      rw [Value.tokens, runs_open hawaits (Or.inl ⟨rfl, rfl⟩)]
      simp only [containerRole_root hrole, if_neg hbuckets, if_pos hk]
      simp
    | array vs =>
      rw [Value.tokens, runs_open hawaits (Or.inr ⟨rfl, rfl⟩)]
      simp only [containerRole_root hrole, if_neg hbuckets, if_pos hk]
      simp
    | _ => cases ht

/-- **The members of the root** mean what `rootMember` says. -/
theorem rootMember_runs (htype : frame.type = .object) (hrole : frame.role = .root) :
    ValueRuns (valueFrame frame k) (fun g ↦ rootMember g k v) v := by
  by_cases hbuckets : k = keyBuckets.bytes
  · exact rootBuckets_runs htype hrole hbuckets
  by_cases hany : k = keyHasAnyData.bytes
  · exact rootHasAnyData_runs htype hrole hany
  have hawaits := awaitsValue_valueFrame htype k
  by_cases hpage : k ∈ paginationKeys.map CString.bytes
  · refine valueRuns_refused (fun g ↦ ?_) hawaits (fun lexer g kind g' ↦ ?_)
      (fun g kind role ↦ ?_)
    · unfold rootMember
      rw [if_neg hbuckets, if_neg hany, if_pos hpage]
    · rw [handleScalar_root hrole, if_neg hbuckets, if_pos hpage]
      simp
    · rw [containerRole_root hrole, if_neg hbuckets, if_neg hany, if_pos hpage]
      simp
  · have hmember : (fun g ↦ rootMember g k v) = some := by
      funext g
      unfold rootMember
      rw [if_neg hbuckets, if_neg hany, if_neg hpage]
    rw [hmember]
    refine ignored v ⟨hawaits, ?_, fun g kind ↦ ?_, fun lexer g kind ↦ ?_⟩
    · show frame.role ≠ _
      simp [hrole]
    · rw [containerRole_root hrole, if_neg hbuckets, if_neg hany, if_neg hpage]
    · rw [handleScalar_root hrole, if_neg hbuckets, if_neg hpage, if_neg hany]

end RootMember

/-! ### The response -/

/-- The root must have had both. -/
theorem closeRole_root {g g' : Grammar} :
    closeRole g .root = .ok g' ↔
      g.seenBuckets = true ∧ g.seenHasAnyData = true ∧ g' = g := by
  have hclose : closeRole g .root =
      if ¬ g.seenBuckets ∨ ¬ g.seenHasAnyData then .error .schema else .ok g := rfl
  rw [hclose]
  by_cases h₁ : g.seenBuckets = true
  · by_cases h₂ : g.seenHasAnyData = true
    · simp [h₁, h₂, eq_comm]
    · simp [h₂]
  · simp [h₁]

/-- **A response, token by token.** The tokens of an object are accepted exactly when the object
fits and its members, in order, are accepted and show both required names. -/
theorem runTokens_object {g g' : Grammar} {ms : List (List UInt8 × Value)}
    (hstart : g.rootStarted = false) (hcomplete : g.rootComplete = false)
      (hframes : g.frames = []) :
    g.runTokens (Value.object ms).tokens = .ok g' ↔
      Fits 0 (.object ms) ∧ ∃ g₁, ms.foldlM (fun g m ↦ rootMember g m.1 m.2) g = some g₁ ∧
        g₁.seenBuckets = true ∧ g₁.seenHasAnyData = true ∧
        g' = { g₁.under [] with candidate.hasAnyData := g₁.rootHasAnyData } := by
  have hopen : g.step .leftObject = .ok (g.under [openFrame .object .root]) := by
    show handleToken _ g .leftObject = _
    rw [handleToken, if_neg (by simp [hcomplete]), if_pos (by simp [hstart]),
      if_neg (not_not.2 rfl)]
    refine pushFrame_ok.2 ⟨?_, ?_⟩
    · show g.frames.length < _
      rw [hframes]
      decide
    · rw [if_neg (by decide)]
      simp [Grammar.under, hframes, hcomplete]
  have hinside := @runs_object .root rootMember ms
    (fun m _ frame htype hrole ↦ rootMember_runs htype hrole) g []
  have hrun : g.runTokens (Value.object ms).tokens =
      ((Rfc8259.membersTokens ms ++ [Token.rightObject]).foldlM Grammar.step
        (g.under [openFrame .object .root]) >>= finishGrammar) := by
    rw [Grammar.runTokens, Value.tokens, List.foldlM_cons, hopen]
    rfl
  rw [hrun, fits_object]
  have hdepth : (0 : ℕ) < parserMaxDepth := by decide
  -- What `vibe_parser_finish` checks has been checked at the closing brace.
  have hfinish : ∀ g₁ : Grammar, g₁.seenBuckets = true → g₁.seenHasAnyData = true →
      finishGrammar (g₁.under []) =
        .ok { g₁.under [] with candidate.hasAnyData := g₁.rootHasAnyData } := by
    intro g₁ h₁ h₂
    unfold finishGrammar
    rw [if_neg (by simp [Grammar.under, h₁, h₂])]
    rfl
  constructor
  · intro h
    cases hmembers : (Rfc8259.membersTokens ms ++ [Token.rightObject]).foldlM Grammar.step
        (g.under [openFrame .object .root]) with
    | error e => rw [hmembers] at h; cases h
    | ok g₂ =>
      rw [hmembers] at h
      obtain ⟨hfits, g₁, hg₁, g₃, hclose, rfl⟩ := (hinside g₂ hdepth).1 hmembers
      obtain ⟨h₁, h₂, rfl⟩ := closeRole_root.1 hclose
      refine ⟨⟨hdepth, hfits⟩, g₃, hg₁, h₁, h₂, ?_⟩
      have hok : finishGrammar (g₃.under []) = .ok g' := h
      rw [hfinish g₃ h₁ h₂] at hok
      exact (Except.ok.inj hok).symm
  · rintro ⟨⟨-, hfits⟩, g₁, hg₁, h₁, h₂, rfl⟩
    have hclose : closeRole g₁ .root = .ok g₁ := closeRole_root.2 ⟨h₁, h₂, rfl⟩
    have hmembers := (hinside (g₁.under []) hdepth).2 ⟨hfits, g₁, hg₁, g₁, hclose, rfl⟩
    unfold Runs at hmembers
    rw [hmembers]
    exact hfinish g₁ h₁ h₂

/-- Any other value is refused at its first token. -/
theorem object_of_runTokens {g g' : Grammar} {v : Value} (hstart : g.rootStarted = false)
    (hcomplete : g.rootComplete = false) (h : g.runTokens v.tokens = .ok g') :
    ∃ ms, v = .object ms := by
  have hfirst : ∀ {t : Token} {ts : List Token}, v.tokens = t :: ts → kindOf t = .leftObject := by
    intro t ts heq
    by_contra hne
    rw [Grammar.runTokens, heq, List.foldlM_cons] at h
    have hstep : ∃ e, g.step t = .error e := by
      cases hs : g.step t with
      | error e => exact ⟨e, rfl⟩
      | ok g₁ =>
        have hok := handleToken_of_step hs
        rw [handleToken, if_neg (by simp [hcomplete]), if_pos (by simp [hstart]),
          if_pos hne] at hok
        cases hok
    obtain ⟨e, hs⟩ := hstep
    rw [hs] at h
    cases h
  cases v with
  | object ms => exact ⟨ms, rfl⟩
  | bool b => cases b <;> exact TokenKind.noConfusion (hfirst rfl)
  | _ => exact TokenKind.noConfusion (hfirst rfl)

end VibeUsage
