import VibeUsage.Parser.Language

/-!
# Attribution by the parser and by the aggregator

A body's buckets can be added to a candidate directly, each under its whole decoded source. The
parser keeps no more than 1024 bytes of a source and hands an over-long one on as `__other__`, so
the aggregator never learns that it was over-long. `parser_attribution_iff` says what comes of it:
slots, total and bucket count are those of the direct run, and `sources_collapsed` is too exactly
when no source is over-long or the slots run out anyway.

`addAll_direct` compares the two runs bucket by bucket and finds the flag as the only difference.
`parser_attribution_differs` is a body of one bucket in which it shows: a source of 48 letters.
-/

namespace VibeUsage

open Rfc8259 (Value IsJsonText)

/-! ### The run of the parser -/

/-- The call that adds the bucket under its whole source. -/
def Bucket.direct (b : Bucket) : SourceTotal := ⟨.ofBytes b.source, b.totalTokens⟩

/-- **The items of the bucket array** are added one after the other. -/
theorem foldlM_addItem_run {request : Request} {vs : List Value} {c c' : DayCandidate}
    (h : vs.foldlM (addItem request) c = some c') : ∃ bs,
      List.Forall₂ (IsBucket KeptNulFree request) vs bs ∧ c' = addAll c (bs.map Bucket.entry) := by
  induction vs generalizing c with
  | nil =>
    obtain rfl := Option.some.inj h
    exact ⟨[], .nil, rfl⟩
  | cons v vs ih =>
    rw [List.foldlM_cons] at h
    obtain ⟨c₁, hitem, hrest⟩ := Option.bind_eq_some_iff.1 h
    obtain ⟨b, hb, -, hadd⟩ := addItem_iff.1 hitem
    obtain ⟨bs, hbs, rfl⟩ := ih hrest
    have hentry : addEntry c b.entry = c₁ := by
      unfold addEntry
      rw [hadd]
    refine ⟨b :: bs, .cons hb hbs, ?_⟩
    rw [← hentry]
    rfl

/-- The candidate of an accepted body is the run of its entries. -/
theorem candidate_of_accepts {request : Request} {maxBodyBytes : ℕ} {body : List UInt8}
    (h : ValidRequest request maxBodyBytes) (hbody : body.length ≤ maxBodyBytes)
    (haccepts : Accepts request maxBodyBytes body) {v : Value} {bs : List Bucket}
    {hasAnyData : Bool} (htext : IsJsonText v body)
    (hbs : IsResponse (fun _ ↦ True) request v bs hasAnyData) :
    IsResponse KeptNulFree request v bs hasAnyData ∧
      ∃ any, (parseBody request maxBodyBytes body).candidate =
        { addAll (vibeDayCandidateInit request.date) (bs.map Bucket.entry) with
          hasAnyData := any } := by
  obtain ⟨ms, c₁, any, htext', -, hf, hc⟩ := (outcome_iff h hbody).1
    (accepts_iff_outcome.1 haccepts)
  obtain rfl := Rfc8259.isJsonText_unique htext htext'
  obtain ⟨bs', hbs', -⟩ := counts_of_foldlM hf
  obtain rfl := isResponse_unique hbs' hbs
  have hclean := hbs'.clean
  refine ⟨hbs.imp fun b hb _ ↦ hclean b hb, any, ?_⟩
  obtain ⟨hbuckets, -, -⟩ := foldlM_root.1 hf
  obtain ⟨v', hv', hread⟩ := foldlM_once.1 hbuckets
  obtain ⟨items, rfl, hitems⟩ := readBuckets_iff.1 hread
  obtain ⟨bs'', hbs'', rfl⟩ := foldlM_addItem_run hitems
  obtain ⟨ms', items', hms, ⟨hitems', hforall⟩, hrest⟩ := hbs'
  obtain rfl := Value.object.inj hms
  obtain rfl := Value.array.inj (List.cons.inj (hv'.symm.trans hitems')).1
  obtain rfl := isBuckets_unique hbs'' hforall
  exact hc

/-! ### The direct run -/

/-- A source is over-long whether or not it hides a U+0000 behind the kept bytes. -/
theorem tooLong_direct {b : Bucket} (hclean : KeptNulFree b.source) :
    TooLong b.direct.id ↔ b.source.length ≥ sourceIdBytes := by
  unfold TooLong Bucket.direct
  dsimp only
  constructor
  · intro hlong
    have hle : (CString.ofBytes b.source).bytes.length ≤ b.source.length :=
      (List.takeWhile_sublist _).length_le
    omega
  · intro hlong
    have hall : ∀ x ∈ b.source.take (parserTokenBytes - 1), decide (x ≠ 0) = true := by
      intro x hx
      exact decide_eq_true fun h0 ↦ hclean (h0 ▸ hx)
    have hkept : (b.source.take (parserTokenBytes - 1)).length ≤
        (CString.ofBytes b.source).bytes.length := by
      rw [CString.ofBytes_bytes]
      conv_rhs => rw [← List.take_append_drop (parserTokenBytes - 1) b.source]
      rw [List.takeWhile_append_of_pos hall, List.length_append]
      exact Nat.le_add_right _ _
    rw [List.length_take] at hkept
    unfold sourceIdBytes at hlong ⊢
    unfold parserTokenBytes at hkept
    omega

/-- What the candidate counts of a bucket is its entry. -/
theorem countedEntry_direct {b : Bucket} (hclean : KeptNulFree b.source) :
    countedEntry b.direct = b.entry := by
  have hlong : b.direct.id.bytes.length ≥ sourceIdBytes ↔ b.source.length ≥ sourceIdBytes :=
    tooLong_direct hclean
  unfold countedEntry Bucket.entry countedId
  by_cases h : b.source.length ≥ sourceIdBytes
  · rw [if_pos (hlong.2 h), if_pos h]
    rfl
  · rw [if_neg (mt hlong.1 h), if_neg h]
    rfl

/-- A bucket has an id. -/
theorem direct_id_ne_nil {b : Bucket} (hne : b.source ≠ []) (hclean : KeptNulFree b.source) :
    b.direct.id.bytes ≠ [] := by
  cases hs : b.source with
  | nil => exact absurd hs hne
  | cons c rest =>
    have hc : c ≠ 0 := by
      rintro rfl
      refine hclean ?_
      rw [hs]
      exact List.mem_cons_self
    unfold Bucket.direct
    rw [hs, CString.ofBytes_bytes, List.takeWhile_cons, if_pos (decide_eq_true hc)]
    exact List.cons_ne_nil _ _

/-- Every source has a byte. -/
theorem IsResponse.source_ne_nil {clean : List UInt8 → Prop} {request : Request} {v : Value}
    {bs : List Bucket} {hasAnyData : Bool} (h : IsResponse clean request v bs hasAnyData) :
    ∀ b ∈ bs, b.source ≠ [] := by
  obtain ⟨ms, items, -, ⟨-, hbs⟩, -⟩ := h
  induction hbs with
  | nil => simp
  | cons hb _ ih =>
    intro b' hb'
    rcases List.mem_cons.1 hb' with rfl | hb'
    · obtain ⟨ms, start, digits, -, ⟨-, hne, -⟩, -⟩ := hb
      exact hne
    · exact ih b' hb'

/-- The ids under which the buckets of a body are counted, in order. -/
def bucketIds (bs : List Bucket) : List CString := bs.map fun b ↦ b.entry.id

/-- **The direct run beside the run of the parser**: the same candidate, but for the flag. -/
theorem addAll_direct {request : Request} {v : Value} {bs : List Bucket} {hasAnyData : Bool}
    (h : IsResponse KeptNulFree request v bs hasAnyData) :
    addAll (vibeDayCandidateInit request.date) (bs.map Bucket.direct) =
      (addAll (vibeDayCandidateInit request.date) (bs.map Bucket.entry)).withCollapsed
        ((addAll (vibeDayCandidateInit request.date) (bs.map Bucket.entry)).sourcesCollapsed ||
          bs.any fun b ↦ decide (b.source.length ≥ sourceIdBytes)) ∧
    ((addAll (vibeDayCandidateInit request.date) (bs.map Bucket.entry)).sourcesCollapsed = true ↔
      RunsOut (bucketIds bs)) := by
  have hclean := h.clean
  have hne := h.source_ne_nil
  obtain ⟨ms, items, -, -, -, -, -, hsum⟩ := h
  have hids : ∀ e ∈ bs.map Bucket.direct, e.id.bytes ≠ [] := by
    intro e he
    obtain ⟨b, hb, rfl⟩ := List.mem_map.1 he
    exact direct_id_ne_nil (hne b hb) (hclean b hb)
  have hentries : (bs.map Bucket.direct).map countedEntry = bs.map Bucket.entry := by
    rw [List.map_map]
    exact List.map_congr_left fun b hb ↦ countedEntry_direct (hclean b hb)
  have hany : ((bs.map Bucket.direct).any fun e ↦ decide (TooLong e.id)) =
      bs.any fun b ↦ decide (b.source.length ≥ sourceIdBytes) := by
    rw [List.any_map, Bool.eq_iff_iff, List.any_eq_true, List.any_eq_true]
    refine exists_congr fun b ↦ and_congr_right fun hb ↦ ?_
    rw [Function.comp_apply, decide_eq_true_eq, decide_eq_true_eq, tooLong_direct (hclean b hb)]
  have hfits : (vibeDayCandidateInit request.date).totalTokens.toNat +
      tokensSum (bs.map Bucket.direct) < 2 ^ 64 := by
    rw [tokensSum, List.map_map, show (vibeDayCandidateInit request.date).totalTokens.toNat =
      0 from rfl,
      Nat.zero_add]
    exact hsum
  have hrun := addAll_countedEntry (accumulates_init request.date) hids hfits false
  have hflag := collapsed_addAll (accumulates_init request.date) hids hfits
    (by simp [vibeDayCandidateInit, RunsOut, countedIds])
  rw [hentries, hany] at hrun
  rw [hentries, List.nil_append] at hflag
  -- The direct run counts under the same ids.
  have hcounted : countedIds (bs.map Bucket.direct) = bucketIds bs := by
    rw [countedIds, hentries, List.map_map]
    rfl
  rw [hcounted] at hflag
  exact ⟨hrun, hflag⟩

/-- The two candidates attribute the tokens alike. -/
structure SameAttribution (c direct : DayCandidate) : Prop where
  sources : c.sources = direct.sources
  totalTokens : c.totalTokens = direct.totalTokens
  bucketCount : c.bucketCount = direct.bucketCount
  sourcesCollapsed : c.sourcesCollapsed = direct.sourcesCollapsed

/-- **The parser attributes as the aggregator does, exactly when** no source of the body is
over-long, or its ids run out of slots anyway. Slots, total and bucket count always agree. -/
theorem parser_attribution_iff {request : Request} {maxBodyBytes : ℕ} {body : List UInt8}
    (h : ValidRequest request maxBodyBytes) (hbody : body.length ≤ maxBodyBytes)
    (haccepts : Accepts request maxBodyBytes body) {v : Value} {bs : List Bucket}
    {hasAnyData : Bool} (htext : IsJsonText v body)
    (hbs : IsResponse (fun _ ↦ True) request v bs hasAnyData) :
    (SameAttribution (parseBody request maxBodyBytes body).candidate
        (addAll (vibeDayCandidateInit request.date) (bs.map Bucket.direct)) ↔
      (∀ b ∈ bs, b.source.length < sourceIdBytes) ∨ RunsOut (bucketIds bs)) ∧
    SameAttribution ((parseBody request maxBodyBytes body).candidate.withCollapsed false)
      ((addAll (vibeDayCandidateInit request.date) (bs.map Bucket.direct)).withCollapsed
        false) := by
  obtain ⟨hresponse, any, hc⟩ := candidate_of_accepts h hbody haccepts htext hbs
  obtain ⟨hrun, hflag⟩ := addAll_direct hresponse
  rw [hc, hrun]
  generalize addAll (vibeDayCandidateInit request.date) (bs.map Bucket.entry) = c at hflag
  refine ⟨?_, ⟨rfl, rfl, rfl, rfl⟩⟩
  have hlong : (bs.any fun b ↦ decide (b.source.length ≥ sourceIdBytes)) = true ↔
      ¬ ∀ b ∈ bs, b.source.length < sourceIdBytes := by
    simp
  rw [← hflag]
  constructor
  · intro hsame
    have hsame : c.sourcesCollapsed = (c.sourcesCollapsed || _) := hsame.sourcesCollapsed
    -- An over-long source sets the flag in the aggregator only.
    by_contra hnot
    obtain ⟨hsome, hclear⟩ := not_or.1 hnot
    rw [hlong.2 hsome, Bool.or_true] at hsame
    exact hclear hsame
  · intro hor
    refine ⟨rfl, rfl, rfl, ?_⟩
    show c.sourcesCollapsed = (c.sourcesCollapsed || _)
    rcases hor with hshort | hset
    · rw [Bool.eq_false_iff.2 (mt hlong.1 (not_not.2 hshort)), Bool.or_false]
    · rw [hset, Bool.true_or]

/-! ### A source of 48 letters -/

def letters : List UInt8 := List.replicate 48 0x61

def lettersBucket : List (List UInt8 × Value) :=
  [(keySource.bytes, .string letters), (keyBucketStart.bytes, .string longSourceStart),
    (keyTotalTokens.bytes, .number [0x31])]

def lettersMembers : List (List UInt8 × Value) :=
  [(keyBuckets.bytes, .array [.object lettersBucket]), (keyHasAnyData.bytes, .bool true)]

def lettersBucketText : List UInt8 :=
  0x7B :: (quoted keySource.bytes ++ 0x3A :: (quoted letters ++ 0x2C ::
    (quoted keyBucketStart.bytes ++ 0x3A :: (quoted longSourceStart ++ 0x2C ::
      (quoted keyTotalTokens.bytes ++ 0x3A :: [0x31]))))) ++ [0x7D]

/-- One bucket, whose source is 48 letters. -/
def lettersBody : List UInt8 :=
  0x7B :: (quoted keyBuckets.bytes ++ 0x3A :: (0x5B :: lettersBucketText ++ [0x5D] ++ 0x2C ::
    (quoted keyHasAnyData.bytes ++ 0x3A :: [0x74, 0x72, 0x75, 0x65]))) ++ [0x7D]

/-- The body is the text of its value. -/
theorem isJsonText_letters : IsJsonText (.object lettersMembers) lettersBody := by
  have hone : Rfc8259.IsText (.number [0x31]) [0x31] :=
    ⟨rfl, [], [0x31], [], [], rfl, Or.inl rfl,
      Or.inr ⟨0x31, [], rfl, by decide, by decide, by simp⟩,
      Or.inl rfl, Or.inl rfl⟩
  have hbucket : Rfc8259.IsText (.object lettersBucket) lettersBucketText :=
    ⟨_, rfl, isMembers_cons (isString_plain (by decide)) (isString_plain (by decide))
      (isMembers_cons (isString_plain (by decide)) (isString_plain (by decide))
        (isMembers_singleton (isString_plain (by decide)) hone))⟩
  have harray : Rfc8259.IsText (.array [.object lettersBucket])
      (0x5B :: lettersBucketText ++ [0x5D]) :=
    ⟨_, rfl, [], _, [], .nil, hbucket, .nil, by simp⟩
  have hobject : Rfc8259.IsText (.object lettersMembers) lettersBody :=
    ⟨_, rfl, isMembers_cons (isString_plain (by decide)) harray
      (isMembers_singleton (isString_plain (by decide)) rfl)⟩
  exact ⟨[], _, [], .nil, hobject, .nil, by simp⟩

def lettersRequest : Request := ⟨20260715, .utc, 20000⟩

/-- It is a response with one bucket. -/
theorem isResponse_letters : IsResponse NulFree lettersRequest (.object lettersMembers)
    [⟨letters, 1⟩] true := by
  have hbucket : IsBucket NulFree lettersRequest (.object lettersBucket) ⟨letters, 1⟩ :=
    ⟨lettersBucket, longSourceStart, [0x31], rfl,
      ⟨rfl, by decide, fun hmem ↦ absurd (List.eq_of_mem_replicate hmem) (by decide)⟩,
      ⟨rfl, by decide, by decide⟩, rfl, List.forall_mem_singleton.2 (by decide), by decide⟩
  exact ⟨lettersMembers, [.object lettersBucket], rfl, ⟨rfl, .cons hbucket .nil⟩, rfl, by decide,
    by decide, by decide⟩

/-- Its request is valid. -/
theorem validRequest_letters : ValidRequest lettersRequest 4096 :=
  ⟨by decide, by decide, by decide, by decide⟩

theorem length_lettersBody : lettersBody.length ≤ 4096 := by decide +kernel

/-- **The body is accepted.** -/
theorem accepts_letters : Accepts lettersRequest 4096 lettersBody := by
  refine (accepts_iff validRequest_letters length_lettersBody).2
    ⟨_, _, _, isJsonText_letters, ⟨?_, by decide⟩, isResponse_letters.imp fun b _ h ↦ h.kept⟩
  intro n hn
  simp only [lettersMembers, lettersBucket, Value.tokens, Rfc8259.membersTokens,
    Rfc8259.itemsTokens] at hn
  have hn : n = [0x31] := by simpa using hn
  rw [hn]
  decide

/-- The body of one over-long source. -/
theorem parser_attribution_iff_letters :
    SameAttribution (parseBody lettersRequest 4096 lettersBody).candidate
        (addAll (vibeDayCandidateInit lettersRequest.date) ([⟨letters, 1⟩].map Bucket.direct)) ↔
      (∀ b ∈ [(⟨letters, 1⟩ : Bucket)], b.source.length < sourceIdBytes) ∨
        RunsOut (bucketIds [⟨letters, 1⟩]) :=
  (parser_attribution_iff validRequest_letters length_lettersBody accepts_letters
    isJsonText_letters (isResponse_letters.imp fun _ _ _ ↦ trivial)).1

/-- **A merged source goes unreported.** -/
theorem parser_attribution_differs :
    ¬ ∀ (request : Request) (maxBodyBytes : ℕ) (body : List UInt8) (v : Value) (bs : List Bucket)
      (hasAnyData : Bool), ValidRequest request maxBodyBytes → body.length ≤ maxBodyBytes →
      Accepts request maxBodyBytes body → IsJsonText v body →
      IsResponse (fun _ ↦ True) request v bs hasAnyData →
        SameAttribution (parseBody request maxBodyBytes body).candidate
          (addAll (vibeDayCandidateInit request.date) (bs.map Bucket.direct)) := by
  intro hsame
  have h := hsame lettersRequest 4096 lettersBody _ _ _ validRequest_letters length_lettersBody
    accepts_letters isJsonText_letters (isResponse_letters.imp fun _ _ _ ↦ trivial)
  obtain ⟨-, any, hc⟩ := candidate_of_accepts validRequest_letters length_lettersBody
    accepts_letters isJsonText_letters (isResponse_letters.imp fun _ _ _ ↦ trivial)
  rw [hc] at h
  have hflag : (addAll (vibeDayCandidateInit 20260715)
    [Bucket.entry ⟨letters, 1⟩]).sourcesCollapsed =
      (addAll (vibeDayCandidateInit 20260715) [Bucket.direct ⟨letters, 1⟩]).sourcesCollapsed :=
    h.sourcesCollapsed
  revert hflag
  decide +kernel

end VibeUsage
