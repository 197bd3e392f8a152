import VibeUsage.Lib.JsonUnique
import VibeUsage.Parser.Feed
import VibeUsage.Parser.Response
import VibeUsage.Tally

/-!
# The language of the parser

The contract of a response, stated over the JSON value a body spells: which names it must have, what
their values must be, and what the candidate then counts. The parser accepts exactly the bodies of
such values (`accepts_iff`), but for one demand: a source is searched for U+0000 only in the bytes
that the token buffer kept, so a source of more than 1024 bytes can hide one.

* `outcome_iff` says which bodies are accepted, and with which candidate.
* `accepts_spec` reads the candidate off the response, bucket by bucket.
* `parser_language_and_meaning` is the result, for every body within the limits: the parser agrees
  with the contract exactly when no source hides a U+0000 behind its first 1024 bytes.
* `accepts_longSource` is a body where one is hidden.
-/

namespace VibeUsage

open Rfc8259 (Token Value IsDigit IsJsonText)

/-! ### The contract -/

/-- The value of a run of decimal digits. -/
def decimal (digits : List UInt8) : ℕ :=
  digits.foldl (fun n d ↦ n * 10 + (d.toNat - 0x30)) 0

/-- A bucket of a response: its source as decoded, and its tokens. -/
structure Bucket where
  source : List UInt8
  totalTokens : UInt64

/-- What the candidate counts for a bucket. -/
def Bucket.entry (b : Bucket) : SourceTotal where
  id := if b.source.length ≥ sourceIdBytes then otherSourceId else .ofBytes b.source
  tokens := b.totalTokens

/-- The value is an object with one source, one start of the requested day and one total. The text
of the source is subject to `clean`. -/
def IsBucket (clean : List UInt8 → Prop) (request : Request) (v : Value) (b : Bucket) : Prop :=
  ∃ ms start digits, v = .object ms ∧
    (valuesOf ms keySource = [.string b.source] ∧ b.source ≠ [] ∧ clean b.source) ∧
    (valuesOf ms keyBucketStart = [.string start] ∧ 0 ∉ start ∧
      vibeIso8601ToDate (.ofBytes start) request.timezone = .ok request.date) ∧
    (valuesOf ms keyTotalTokens = [.number digits] ∧ (∀ d ∈ digits, IsDigit d) ∧
      decimal digits = b.totalTokens.toNat)

/-- The value is a response: one array of buckets, one flag, no announcement of more pages, no more
buckets than allowed, and a total in 64 bits. -/
def IsResponse (clean : List UInt8 → Prop) (request : Request) (v : Value) (bs : List Bucket)
    (hasAnyData : Bool) : Prop :=
  ∃ ms items, v = .object ms ∧
    (valuesOf ms keyBuckets = [.array items] ∧ List.Forall₂ (IsBucket clean request) items bs) ∧
    valuesOf ms keyHasAnyData = [.bool hasAnyData] ∧
    (∀ key ∈ paginationKeys, valuesOf ms key = []) ∧
    bs.length ≤ request.maxBuckets.toNat ∧
    (bs.map fun b ↦ b.totalTokens.toNat).sum < 2 ^ 64

/-- The value fits the parser: numbers of at most 32 bytes, at most 16 containers open. -/
def FitsParser (v : Value) : Prop :=
  (∀ n, Token.number n ∈ v.tokens → n.length ≤ 32) ∧ v.depth ≤ parserMaxDepth

/-- The body is the text of a response. -/
def IsResponseText (clean : List UInt8 → Prop) (request : Request) (body : List UInt8) : Prop :=
  ∃ v bs hasAnyData, IsJsonText v body ∧ FitsParser v ∧ IsResponse clean request v bs hasAnyData

/-- No U+0000. -/
def NulFree (s : List UInt8) : Prop := 0 ∉ s

/-- No U+0000 in the bytes that the token buffer keeps. -/
def KeptNulFree (s : List UInt8) : Prop := 0 ∉ s.take (parserTokenBytes - 1)

/-- What is nowhere is not in the kept bytes. -/
theorem NulFree.kept {s : List UInt8} (h : NulFree s) : KeptNulFree s := fun hmem ↦
  h (List.mem_of_mem_take hmem)

/-- The candidate that a response amounts to. -/
structure Counts (request : Request) (bs : List Bucket) (hasAnyData : Bool) (c : DayCandidate) :
    Prop where
  dateKey : c.dateKey = request.date
  hasAnyData : c.hasAnyData = hasAnyData
  bucketCount : c.bucketCount.toNat = bs.length
  wellFormed : c.WellFormed
  tallies : Tallies c (bs.map Bucket.entry)

/-! ### Numbers and dates -/

/-- **Digits below 2 to the 64th**, however many zeros begin them. -/
theorem parseU64Digits_iff {digits : List UInt8} : ∀ {result t : ℕ}, result < 2 ^ 64 →
    (parseU64Digits digits result = .ok t ↔ (∀ d ∈ digits, IsDigit d) ∧
      digits.foldl (fun n d ↦ n * 10 + (d.toNat - 0x30)) result = t ∧ t < 2 ^ 64) := by
  -- a value that has left 64 bits never comes back
  have hmono : ∀ (ds : List UInt8) (n : ℕ),
      n ≤ ds.foldl (fun n d ↦ n * 10 + (d.toNat - 0x30)) n := by
    intro ds
    induction ds with
    | nil => exact fun n ↦ Nat.le_refl n
    | cons d ds ih =>
      intro n
      have := ih (n * 10 + (d.toNat - 0x30))
      rw [List.foldl_cons]
      omega
  induction digits with
  | nil =>
    intro result t hresult
    rw [parseU64Digits, List.foldl_nil]
    constructor
    · intro h
      obtain rfl := Except.ok.inj h
      exact ⟨by simp, rfl, hresult⟩
    · rintro ⟨-, rfl, -⟩
      rfl
  | cons d ds ih =>
    intro result t hresult
    rw [parseU64Digits, List.foldl_cons]
    by_cases hdigit : d < 0x30 ∨ d > 0x39
    · rw [if_pos hdigit]
      constructor
      · intro h
        cases h
      · rintro ⟨hall, -⟩
        obtain ⟨hlo, hhi⟩ : (0x30 : UInt8) ≤ d ∧ d ≤ 0x39 := hall d List.mem_cons_self
        rcases hdigit with h | h
        · exact absurd hlo (UInt8.not_le.2 h)
        · exact absurd hhi (UInt8.not_le.2 h)
    · rw [if_neg hdigit]
      obtain ⟨hlo, hhi⟩ := not_or.1 hdigit
      have hlo : (0x30 : UInt8) ≤ d := UInt8.not_lt.1 hlo
      have hhi : d ≤ 0x39 := UInt8.not_lt.1 hhi
      have hd : IsDigit d := ⟨hlo, hhi⟩
      have hval : d.toNat - 0x30 ≤ 9 := by
        have : d.toNat ≤ 0x39 := hhi
        omega
      dsimp only
      by_cases hover : result > (2 ^ 64 - 1 - (d.toNat - 0x30)) / 10
      · rw [if_pos hover]
        constructor
        · intro h
          cases h
        · rintro ⟨-, rfl, hlt⟩
          have := hmono ds (result * 10 + (d.toNat - 0x30))
          omega
      · rw [if_neg hover, ih (by omega)]
        simp only [List.mem_cons, forall_eq_or_imp, hd, true_and]

/-- **The total of a bucket**: digits only, and a value of 64 bits. -/
theorem readTotal_iff {v : Value} {total : UInt64} :
    readTotal v = some total ↔ ∃ digits, v = .number digits ∧ (∀ d ∈ digits, IsDigit d) ∧
      decimal digits = total.toNat := by
  constructor
  · intro h
    cases v with
    | number n =>
      obtain ⟨t, ht, rfl⟩ := Option.map_eq_some_iff.1 h
      cases hparse : parseU64Digits n 0 with
      | error e => rw [hparse] at ht; cases ht
      | ok t' =>
        rw [hparse] at ht
        obtain rfl : t' = t := Option.some.inj ht
        obtain ⟨hdigits, hvalue, hlt⟩ := (parseU64Digits_iff (by decide)).1 hparse
        refine ⟨n, rfl, hdigits, ?_⟩
        rw [UInt64.toNat_ofNat_of_lt' hlt]
        exact hvalue
    | _ => cases h
  · rintro ⟨digits, rfl, hdigits, hvalue⟩
    have hparse := (parseU64Digits_iff (t := total.toNat) (by decide)).2
      ⟨hdigits, hvalue, total.toNat_lt⟩
    rw [readTotal, hparse]
    simp [Except.toOption]

/-- An accepted time stamp fits the buffer. -/
theorem length_of_vibeIso8601ToDate {text : CString} {timezone : Timezone} {date : Int32}
    (h : vibeIso8601ToDate text timezone = .ok date) :
    20 ≤ text.bytes.length ∧ text.bytes.length ≤ 64 := by
  by_contra hlength
  have hfields : parseIsoFields text = none := by
    unfold parseIsoFields
    exact if_pos (by omega)
  unfold vibeIso8601ToDate vibeIso8601ToEpoch at h
  rw [hfields] at h
  cases h

/-- The start of a bucket is one whose date can be told. -/
theorem readStart_iff {v : Value} {text : CString} {timezone : Timezone} {date : Int32} :
    readStart v = some text ∧ vibeIso8601ToDate text timezone = .ok date ↔
      ∃ start, v = .string start ∧ 0 ∉ start ∧ text = .ofBytes start ∧
        vibeIso8601ToDate (.ofBytes start) timezone = .ok date := by
  constructor
  · rintro ⟨h, hdate⟩
    cases v with
    | string s =>
      rw [readStart] at h
      split at h
      · cases h
      · rename_i hbad
        obtain rfl := Option.some.inj h
        exact ⟨s, rfl, fun h ↦ hbad (Or.inl h), rfl, hdate⟩
    | _ => cases h
  · rintro ⟨s, rfl, hnul, rfl, hdate⟩
    have hlength := length_of_vibeIso8601ToDate hdate
    rw [CString.ofBytes_bytes_of_noNul hnul] at hlength
    refine ⟨if_neg ?_, hdate⟩
    rintro (h | rfl | h)
    · exact hnul h
    · simp at hlength
    · unfold bucketStartBytes at h
      omega

/-- The source of a bucket, or the collected one when it is too long. -/
theorem readSource_iff {v : Value} {id : CString} :
    (∃ other, readSource v = some (other, id)) ↔
      ∃ s, v = .string s ∧ s ≠ [] ∧ KeptNulFree s ∧
        id = if s.length ≥ sourceIdBytes then otherSourceId else .ofBytes s := by
  constructor
  · rintro ⟨other, h⟩
    cases v with
    | string s =>
      rw [readSource] at h
      split at h
      · cases h
      · rename_i hbad
        obtain ⟨hnul, hne⟩ := not_or.1 hbad
        refine ⟨s, rfl, hne, hnul, ?_⟩
        split at h
        · rename_i hlong
          rw [if_pos hlong]
          exact (Prod.mk.inj (Option.some.inj h)).2.symm
        · rename_i hlong
          rw [if_neg hlong]
          exact (Prod.mk.inj (Option.some.inj h)).2.symm
    | _ => cases h
  · rintro ⟨s, rfl, hne, hnul, rfl⟩
    rw [readSource, if_neg (not_or.2 ⟨hnul, hne⟩)]
    by_cases hlong : s.length ≥ sourceIdBytes
    · rw [if_pos hlong, if_pos hlong]
      exact ⟨true, rfl⟩
    · rw [if_neg hlong, if_neg hlong]
      exact ⟨false, rfl⟩

/-! ### Buckets -/

/-- A bucket is counted under an id that is not empty. -/
theorem Bucket.entry_id_ne_nil {b : Bucket} (hne : b.source ≠ []) (hclean : KeptNulFree b.source) :
    b.entry.id.bytes ≠ [] := by
  unfold Bucket.entry
  dsimp only
  split
  · decide
  · rename_i hshort
    have hnul : 0 ∉ b.source := by
      unfold KeptNulFree at hclean
      rw [List.take_of_length_le] at hclean
      · exact hclean
      · unfold sourceIdBytes at hshort
        unfold parserTokenBytes
        omega
    rw [CString.ofBytes_bytes_of_noNul hnul]
    exact hne

/-- It is counted under its own id. -/
theorem countedId_entry (b : Bucket) : countedId b.entry.id = b.entry.id := by
  unfold countedId
  by_cases hlong : b.entry.id.bytes.length ≥ sourceIdBytes
  · -- an entry's id fits by construction
    exfalso
    revert hlong
    unfold Bucket.entry
    dsimp only
    split
    · decide
    · rename_i hshort
      have hle : (CString.ofBytes b.source).bytes.length ≤ b.source.length :=
        (List.takeWhile_sublist _).length_le
      omega
  · rw [if_neg hlong]

/-- **One item of the bucket array.** -/
theorem addItem_iff {request : Request} {c c' : DayCandidate} {v : Value} :
    addItem request c v = some c' ↔ ∃ b, IsBucket KeptNulFree request v b ∧
      c.bucketCount < request.maxBuckets ∧
      vibeDayCandidateAdd c b.entry.id b.entry.tokens = (none, c') := by
  constructor
  · intro h
    cases v with
    | object ms =>
      -- The members are read first; `finish_bucket` then wants all three of them.
      obtain ⟨⟨source, start, total⟩, hf, hfinish⟩ := Option.bind_eq_some_iff.1 h
      obtain ⟨hsource, hstart, htotal⟩ := foldlM_fields.1 hf
      cases source with
      | none => cases hfinish
      | some source =>
        obtain ⟨other, id⟩ := source
        cases start with
        | none => cases hfinish
        | some start =>
          cases total with
          | none => cases hfinish
          | some total =>
            rw [finishFields] at hfinish
            split at hfinish
            · cases hfinish
            · rename_i hok
              obtain ⟨-, hdate, hcount⟩ : id.bytes ≠ [] ∧
                  vibeIso8601ToDate start request.timezone = .ok request.date ∧
                  ¬ c.bucketCount ≥ request.maxBuckets := by
                simpa [not_or] using hok
              -- Each member stands in the object once, and its value is of its kind.
              obtain ⟨vs, hvs, hread⟩ := foldlM_once.1 hsource
              obtain ⟨s, rfl, hne, hclean, rfl⟩ := readSource_iff.1 ⟨other, hread⟩
              obtain ⟨vt, hvt, hread⟩ := foldlM_once.1 hstart
              obtain ⟨text, rfl, hnul, rfl, hdate⟩ := readStart_iff.1 ⟨hread, hdate⟩
              obtain ⟨vn, hvn, hread⟩ := foldlM_once.1 htotal
              obtain ⟨digits, rfl, hdigits, hvalue⟩ := readTotal_iff.1 hread
              refine ⟨⟨s, total⟩, ⟨ms, text, digits, rfl, ⟨hvs, hne, hclean⟩, ⟨hvt, hnul, hdate⟩,
                hvn, hdigits, hvalue⟩, UInt32.not_le.1 hcount, ?_⟩
              split at hfinish
              · rename_i hadd
                obtain rfl := Option.some.inj hfinish
                exact hadd
              · cases hfinish
    | _ => cases h
  · rintro ⟨b, ⟨ms, start, digits, rfl, ⟨hvs, hne, hclean⟩, ⟨hvt, hnul, hdate⟩, hvn, hdigits,
      hvalue⟩, hcount, hadd⟩
    obtain ⟨other, hsource⟩ := readSource_iff.2 ⟨b.source, rfl, hne, hclean, rfl⟩
    obtain ⟨hstart, -⟩ := readStart_iff.2 ⟨start, rfl, hnul, rfl, hdate⟩
    have htotal := readTotal_iff.2 ⟨digits, rfl, hdigits, hvalue⟩
    have hf : ms.foldlM BucketFields.member .unread =
        some ⟨some (other, b.entry.id), some (.ofBytes start), some b.totalTokens⟩ :=
      foldlM_fields.2 ⟨foldlM_once.2 ⟨_, hvs, hsource⟩, foldlM_once.2 ⟨_, hvt, hstart⟩,
        foldlM_once.2 ⟨_, hvn, htotal⟩⟩
    refine Option.bind_eq_some_iff.2 ⟨_, hf, ?_⟩
    rw [finishFields, if_neg]
    · rw [show vibeDayCandidateAdd c b.entry.id b.totalTokens = (none, c') from hadd]
    · rw [hdate]
      simp only [ne_eq, not_true, false_or, not_or]
      exact ⟨Bucket.entry_id_ne_nil hne hclean, UInt32.not_le.2 hcount⟩

/-- So it is for every bucket of a response. -/
theorem IsBucket.entry_id_ne_nil {request : Request} {v : Value} {b : Bucket}
    (h : IsBucket KeptNulFree request v b) : b.entry.id.bytes ≠ [] := by
  obtain ⟨ms, start, digits, -, ⟨-, hne, hclean⟩, -⟩ := h
  exact Bucket.entry_id_ne_nil hne hclean

/-- One more bucket for the candidate. -/
theorem counts_add {request : Request} {bs : List Bucket} {c : DayCandidate} {b : Bucket}
    (hc : Counts request bs false c) (hid : b.entry.id.bytes ≠ []) :
    (∃ c', vibeDayCandidateAdd c b.entry.id b.entry.tokens = (none, c')) ↔
      ((bs ++ [b]).map fun b ↦ b.totalTokens.toNat).sum < 2 ^ 64 := by
  have htotal : c.totalTokens.toNat = (bs.map fun b ↦ b.totalTokens.toNat).sum := by
    rw [hc.tallies.total, List.map_map]
    rfl
  have hsum : ((bs ++ [b]).map fun b ↦ b.totalTokens.toNat).sum =
      c.totalTokens.toNat + b.totalTokens.toNat := by
    rw [htotal]
    simp
  rw [hsum]
  constructor
  · rintro ⟨c', hadd⟩
    by_contra hover
    have hrefused : vibeDayCandidateAdd c b.entry.id b.entry.tokens = (some .overflow, c) :=
      vibeDayCandidateAdd_overflow hid (Nat.not_lt.1 hover)
    rw [hrefused] at hadd
    cases hadd
  · intro hfits
    obtain ⟨c', hadd, -⟩ := vibeDayCandidateAdd_spec hc.wellFormed hid hfits
    exact ⟨c', hadd⟩

/-- **One more bucket** is counted. -/
theorem counts_snoc {request : Request} {bs : List Bucket} {c c' : DayCandidate} {b : Bucket}
    (hc : Counts request bs false c) (hid : b.entry.id.bytes ≠ [])
    (hroom : c.bucketCount < request.maxBuckets)
    (hadd : vibeDayCandidateAdd c b.entry.id b.entry.tokens = (none, c')) :
    Counts request (bs ++ [b]) false c' := by
  have hfits : c.totalTokens.toNat + b.entry.tokens.toNat < 2 ^ 64 := by
    by_contra hover
    rw [vibeDayCandidateAdd_overflow hid (Nat.not_lt.1 hover)] at hadd
    cases hadd
  obtain ⟨c'', hadd', hwf, hadded⟩ := vibeDayCandidateAdd_spec hc.wellFormed hid hfits
  obtain rfl : c' = c'' := (Prod.mk.inj (hadd.symm.trans hadd')).2
  rw [countedId_entry] at hadded
  refine ⟨hadded.dateKey.trans hc.dateKey, hadded.hasAnyData.trans hc.hasAnyData, ?_, hwf, ?_⟩
  · have hlt : c.bucketCount.toNat + 1 < 2 ^ 32 := by
      have hmax := request.maxBuckets.toNat_lt
      have : c.bucketCount.toNat < request.maxBuckets.toNat := hroom
      omega
    rw [hadded.bucketCount, UInt32.toNat_add, UInt32.toNat_one, Nat.mod_eq_of_lt hlt,
      hc.bucketCount, List.length_append, List.length_singleton]
  · rw [List.map_append]
    exact tallies_add hc.tallies hadded

/-- A new candidate counts nothing. -/
theorem counts_init (request : Request) :
    Counts request [] false (vibeDayCandidateInit request.date) :=
  ⟨rfl, rfl, rfl, wellFormed_init _, tallies_init _⟩

/-- **The items of the bucket array**, after the buckets `done`. -/
theorem foldlM_addItem {request : Request} {vs : List Value} : ∀ {done : List Bucket}
    {c c' : DayCandidate}, Counts request done false c → done.length ≤ request.maxBuckets.toNat →
      (done.map fun b ↦ b.totalTokens.toNat).sum < 2 ^ 64 →
      vs.foldlM (addItem request) c = some c' → ∃ bs,
        List.Forall₂ (IsBucket KeptNulFree request) vs bs ∧
        (done ++ bs).length ≤ request.maxBuckets.toNat ∧
        ((done ++ bs).map fun b ↦ b.totalTokens.toNat).sum < 2 ^ 64 ∧
        Counts request (done ++ bs) false c' := by
  induction vs with
  | nil =>
    intro done c c' hc hlength hsum h
    obtain rfl := Option.some.inj h
    refine ⟨[], .nil, ?_⟩
    rw [List.append_nil]
    exact ⟨hlength, hsum, hc⟩
  | cons v vs ih =>
    intro done c c' hc hlength hsum h
    rw [List.foldlM_cons] at h
    obtain ⟨c₁, hitem, hrest⟩ := Option.bind_eq_some_iff.1 h
    obtain ⟨b, hb, hroom, hadd⟩ := addItem_iff.1 hitem
    have hid := hb.entry_id_ne_nil
    have hcount : done.length < request.maxBuckets.toNat := hc.bucketCount ▸ hroom
    obtain ⟨bs, hbs, hlength', hsum', hc'⟩ := ih (counts_snoc hc hid hroom hadd)
      (by rw [List.length_append, List.length_singleton]; omega)
      ((counts_add hc hid).1 ⟨c₁, hadd⟩) hrest
    refine ⟨b :: bs, .cons hb hbs, ?_⟩
    rw [← List.append_cons] at hlength' hsum' hc'
    exact ⟨hlength', hsum', hc'⟩

/-- Buckets within the limits are accepted. -/
theorem foldlM_addItem_complete {request : Request} {vs : List Value} {bs : List Bucket}
    (h : List.Forall₂ (IsBucket KeptNulFree request) vs bs) : ∀ {done : List Bucket}
    {c : DayCandidate}, Counts request done false c →
      (done ++ bs).length ≤ request.maxBuckets.toNat →
      ((done ++ bs).map fun b ↦ b.totalTokens.toNat).sum < 2 ^ 64 →
      ∃ c', vs.foldlM (addItem request) c = some c' := by
  induction h with
  | nil =>
    intro done c _ _ _
    exact ⟨c, rfl⟩
  | @cons v b vs bs hb _ ih =>
    intro done c hc hlength hsum
    have hid := hb.entry_id_ne_nil
    rw [List.append_cons] at hlength hsum
    have hroom : c.bucketCount < request.maxBuckets := by
      show c.bucketCount.toNat < request.maxBuckets.toNat
      rw [hc.bucketCount]
      simp only [List.length_append, List.length_singleton] at hlength
      omega
    have hsum₁ : ((done ++ [b]).map fun b ↦ b.totalTokens.toNat).sum < 2 ^ 64 := by
      rw [List.map_append, List.sum_append] at hsum
      omega
    obtain ⟨c₁, hadd⟩ := (counts_add hc hid).2 hsum₁
    obtain ⟨c', hrest⟩ := ih (counts_snoc hc hid hroom hadd) hlength hsum
    refine ⟨c', ?_⟩
    rw [List.foldlM_cons]
    exact Option.bind_eq_some_iff.2 ⟨c₁, addItem_iff.2 ⟨b, hb, hroom, hadd⟩, hrest⟩

/-! ### Responses -/

/-- The flag is a boolean. -/
theorem readHasAnyData_iff {v : Value} {b : Bool} : readHasAnyData v = some b ↔ v = .bool b := by
  cases v <;> simp [readHasAnyData]

/-- The buckets are an array, added one after the other. -/
theorem readBuckets_iff {request : Request} {v : Value} {c : DayCandidate} :
    readBuckets request v = some c ↔ ∃ items, v = .array items ∧
      items.foldlM (addItem request) (vibeDayCandidateInit request.date) = some c := by
  cases v <;> simp [readBuckets]

/-- The numbers of a text are numbers of the grammar. -/
theorem isNumber_of_spelled {tokens : List Token} {body : List UInt8}
    (h : Rfc8259.Spelled tokens body) : ∀ n, Token.number n ∈ tokens → Rfc8259.IsNumber n := by
  induction h with
  | nil => simp
  | @cons k ks w b r _ hb _ _ ih =>
    intro n hn
    rcases List.mem_cons.1 hn with rfl | hn
    · obtain ⟨rfl, hnumber⟩ := hb
      exact hnumber
    · exact ih n hn

/-- **The members of the root that make a candidate** are a response, and the candidate is the one
it amounts to. -/
theorem counts_of_foldlM {request : Request} {ms : List (List UInt8 × Value)} {c : DayCandidate}
    {hasAnyData : Bool}
    (h : ms.foldlM (RootFields.member request) .unread = some ⟨some c, some hasAnyData⟩) :
    ∃ bs, IsResponse KeptNulFree request (.object ms) bs hasAnyData ∧
      Counts request bs hasAnyData { c with hasAnyData } := by
  obtain ⟨hbuckets, hany, hpages⟩ := foldlM_root.1 h
  obtain ⟨v, hv, hread⟩ := foldlM_once.1 hbuckets
  obtain ⟨items, rfl, hitems⟩ := readBuckets_iff.1 hread
  obtain ⟨v', hv', hread'⟩ := foldlM_once.1 hany
  obtain rfl := readHasAnyData_iff.1 hread'
  obtain ⟨bs, hbs, hlength, hsum, hc⟩ := foldlM_addItem (counts_init request) (Nat.zero_le _)
    (by decide) hitems
  refine ⟨bs, ⟨ms, items, rfl, ⟨hv, hbs⟩, hv', hpages, hlength, hsum⟩, ?_⟩
  exact ⟨hc.dateKey, rfl, hc.bucketCount, ⟨hc.wellFormed.sum, hc.wellFormed.nodup,
    hc.wellFormed.named, hc.wellFormed.ids⟩, hc.tallies.names, hc.tallies.tokensOf,
    hc.tallies.total⟩

/-- The members of a response make one. -/
theorem foldlM_of_isResponse {request : Request} {ms : List (List UInt8 × Value)}
    {bs : List Bucket} {hasAnyData : Bool}
    (h : IsResponse KeptNulFree request (.object ms) bs hasAnyData) :
    ∃ c, ms.foldlM (RootFields.member request) .unread = some ⟨some c, some hasAnyData⟩ := by
  obtain ⟨ms', items, hms, ⟨hv, hbs⟩, hv', hpages, hlength, hsum⟩ := h
  obtain rfl := Value.object.inj hms
  obtain ⟨c, hitems⟩ := foldlM_addItem_complete hbs (counts_init request) hlength hsum
  exact ⟨c, foldlM_root.2 ⟨foldlM_once.2 ⟨_, hv, readBuckets_iff.2 ⟨items, rfl, hitems⟩⟩,
    foldlM_once.2 ⟨_, hv', readHasAnyData_iff.2 rfl⟩, hpages⟩⟩

/-! ### Bodies -/

/-- A parser set up for a request, before the first byte. -/
def parserFor (request : Request) (maxBodyBytes : ℕ) : Parser :=
  vibeUsageParserSetLimits (vibeUsageParserInit request.date request.timezone) maxBodyBytes
    request.maxBuckets

/-- What the parser says of a whole body. -/
def parseBody (request : Request) (maxBodyBytes : ℕ) (body : List UInt8) : Parser :=
  vibeUsageParserFinish (vibeUsageParserFeed (parserFor request maxBodyBytes) body)

/-- A request and limits that `vibe_usage_parser_init` and `_set_limits` take. -/
structure ValidRequest (request : Request) (maxBodyBytes : ℕ) : Prop where
  date : vibeDateIsValid request.date = true
  timezone : request.timezone.Supported
  maxBodyBytes : maxBodyBytes ≠ 0
  maxBuckets : request.maxBuckets ≠ 0

/-- The parser of a valid request. -/
theorem parserFor_eq {request : Request} {maxBodyBytes : ℕ}
    (h : ValidRequest request maxBodyBytes) :
    parserFor request maxBodyBytes =
      { machine :=
          ⟨lexerInit, grammarInit request.date request.timezone request.maxBuckets⟩
        maxBodyBytes, bodyBytes := 0, error := none } := by
  unfold parserFor vibeUsageParserSetLimits vibeUsageParserInit
  rw [if_neg (not_or.2 ⟨h.maxBodyBytes, h.maxBuckets⟩), if_pos ⟨h.date, h.timezone⟩]
  rfl

/-- The outcome is the machine's, over the whole body. -/
theorem outcome_parseBody {request : Request} {maxBodyBytes : ℕ} {body : List UInt8}
    (h : ValidRequest request maxBodyBytes) (hbody : body.length ≤ maxBodyBytes) :
    (parseBody request maxBodyBytes body).outcome =
      (Machine.run ⟨lexerInit, grammarInit request.date request.timezone request.maxBuckets⟩
        body).map (·.grammar.candidate) := by
  have hpieces : feedPieces (parserFor request maxBodyBytes) [body] =
      vibeUsageParserFeed (parserFor request maxBodyBytes) body := by
    simp only [feedPieces, ite_self]
  have hle : (parserFor request maxBodyBytes).bodyBytes + [body].flatten.length ≤
      (parserFor request maxBodyBytes).maxBodyBytes := by
    rw [parserFor_eq h]
    simpa using hbody
  have herr : (parserFor request maxBodyBytes).error = none := by rw [parserFor_eq h]
  have houtcome := outcome_feedPieces herr hle
  rw [hpieces] at houtcome
  rw [parseBody, houtcome, parserFor_eq h]
  simp

/-- **The accepted bodies, with their candidates.** -/
theorem outcome_iff {request : Request} {maxBodyBytes : ℕ} {body : List UInt8} {c : DayCandidate}
    (h : ValidRequest request maxBodyBytes) (hbody : body.length ≤ maxBodyBytes) :
    (parseBody request maxBodyBytes body).outcome = .ok c ↔
      ∃ ms c₁ hasAnyData, IsJsonText (.object ms) body ∧ Fits 0 (.object ms) ∧
        ms.foldlM (RootFields.member request) .unread = some ⟨some c₁, some hasAnyData⟩ ∧
        c = { c₁ with hasAnyData } := by
  rw [outcome_parseBody h hbody]
  generalize hg : grammarInit request.date request.timezone request.maxBuckets = g
  have hrequest : g.request = request := by rw [← hg]; rfl
  have hroot : resetBucket g = g.withRoot .unread := by rw [← hg]; rfl
  have hidle : Idle lexerInit := ⟨rfl, rfl⟩
  have hstart : g.rootStarted = false := by rw [← hg]; rfl
  have hcomplete : g.rootComplete = false := by rw [← hg]; rfl
  have hframes : g.frames = [] := by rw [← hg]; rfl
  have hmap : (Machine.run ⟨lexerInit, g⟩ body).map (·.grammar.candidate) = .ok c ↔
      ∃ g', (Machine.run ⟨lexerInit, g⟩ body).map (·.grammar) = .ok g' ∧ g'.candidate = c := by
    cases Machine.run ⟨lexerInit, g⟩ body with
    | error e => simp [Except.map]
    | ok m => simp [Except.map]
  rw [hmap]
  constructor
  · rintro ⟨g', hrun, rfl⟩
    -- From the body to its tokens, from the tokens to a value, from the value to its members.
    obtain ⟨tokens, hspelled, hrun⟩ := (run_idle_iff hidle).1 hrun
    obtain ⟨v, rfl⟩ := tokens_of_runTokens (hg ▸ follows_grammarInit _ _ _) hrun
    obtain ⟨ms, rfl⟩ := object_of_runTokens hstart hcomplete hrun
    obtain ⟨hfits, g₁, hfold, hbuckets, hany, rfl⟩ :=
      (runTokens_object hstart hcomplete hframes).1 hrun
    have hmembers := foldlM_rootMember ms hroot
    rw [hfold, hrequest] at hmembers
    cases hf : ms.foldlM (RootFields.member request) .unread with
    | none => rw [hf] at hmembers; cases hmembers
    | some f =>
      rw [hf] at hmembers
      have hreset : resetBucket g₁ = g.withRoot f := Option.some.inj hmembers
      obtain ⟨buckets, any⟩ := f
      have hseen := congrArg Grammar.seenBuckets hreset
      have hseenAny := congrArg Grammar.seenHasAnyData hreset
      have hcandidate := congrArg Grammar.candidate hreset
      have hrootAny := congrArg Grammar.rootHasAnyData hreset
      -- `finish` has asked for both members, so both have been read.
      cases buckets with
      | none => exact Bool.noConfusion (hbuckets.symm.trans hseen)
      | some c₁ =>
        cases any with
        | none => exact Bool.noConfusion (hany.symm.trans hseenAny)
        | some hasAnyData =>
          refine ⟨ms, c₁, hasAnyData, Rfc8259.isJsonText_iff_spelled.2 hspelled, hfits, hf, ?_⟩
          have hcandidate : g₁.candidate = c₁ := hcandidate
          have hrootAny : g₁.rootHasAnyData = hasAnyData := hrootAny
          show { g₁.candidate with hasAnyData := g₁.rootHasAnyData } = _
          rw [hcandidate, hrootAny]
  -- And back, by the same equivalences.
  · rintro ⟨ms, c₁, hasAnyData, htext, hfits, hf, rfl⟩
    have hmembers := foldlM_rootMember ms hroot
    rw [hrequest, hf] at hmembers
    obtain ⟨g₁, hfold, hreset⟩ := Option.map_eq_some_iff.1 hmembers
    have hseen := congrArg Grammar.seenBuckets hreset
    have hseenAny := congrArg Grammar.seenHasAnyData hreset
    have hcandidate := congrArg Grammar.candidate hreset
    have hrootAny := congrArg Grammar.rootHasAnyData hreset
    have hrun := (runTokens_object hstart hcomplete hframes).2
      ⟨hfits, g₁, hfold, hseen, hseenAny, rfl⟩
    refine ⟨_, (run_idle_iff hidle).2 ⟨_, Rfc8259.isJsonText_iff_spelled.1 htext, hrun⟩, ?_⟩
    have hcandidate : g₁.candidate = c₁ := hcandidate
    have hrootAny : g₁.rootHasAnyData = hasAnyData := hrootAny
    show { g₁.candidate with hasAnyData := g₁.rootHasAnyData } = _
    rw [hcandidate, hrootAny]

/-- `vibe_usage_parser_finish` returns `VIBE_OK`. -/
def Accepts (request : Request) (maxBodyBytes : ℕ) (body : List UInt8) : Prop :=
  (parseBody request maxBodyBytes body).error = none

/-- A body is accepted when there is a candidate. -/
theorem accepts_iff_outcome {request : Request} {maxBodyBytes : ℕ} {body : List UInt8} :
    Accepts request maxBodyBytes body ↔
      (parseBody request maxBodyBytes body).outcome =
        .ok (parseBody request maxBodyBytes body).candidate := by
  unfold Accepts Parser.outcome
  cases (parseBody request maxBodyBytes body).error <;> simp

/-- A value with nothing around it fits when it fits the parser. -/
theorem fits_of_text {v : Value} {body : List UInt8} (htext : IsJsonText v body) :
    Fits 0 v ↔ FitsParser v := by
  have hnumber := isNumber_of_spelled (Rfc8259.isJsonText_iff_spelled.1 htext)
  unfold Fits FitsParser NumbersOk
  rw [Nat.add_zero]
  refine and_congr_left fun _ ↦ ⟨fun h n hn ↦ (h n hn).1, fun h n hn ↦ ⟨h n hn, hnumber n hn⟩⟩

/-- **The parser's language**, and what the candidate of an accepted body is. -/
theorem accepts_spec {request : Request} {maxBodyBytes : ℕ} {body : List UInt8}
    (h : ValidRequest request maxBodyBytes) (hbody : body.length ≤ maxBodyBytes)
    (haccepts : Accepts request maxBodyBytes body) :
    ∃ v bs hasAnyData, IsJsonText v body ∧ FitsParser v ∧
      IsResponse KeptNulFree request v bs hasAnyData ∧
      Counts request bs hasAnyData (parseBody request maxBodyBytes body).candidate := by
  obtain ⟨ms, c₁, hasAnyData, htext, hfits, hf, hc⟩ :=
    (outcome_iff h hbody).1 (accepts_iff_outcome.1 haccepts)
  obtain ⟨bs, hbs, hcounts⟩ := counts_of_foldlM hf
  rw [hc]
  exact ⟨_, bs, hasAnyData, htext, (fits_of_text htext).1 hfits, hbs, hcounts⟩

/-- **A body is accepted** exactly when it is the text of a response, as far as U+0000 can be seen.
-/
theorem accepts_iff {request : Request} {maxBodyBytes : ℕ} {body : List UInt8}
    (h : ValidRequest request maxBodyBytes) (hbody : body.length ≤ maxBodyBytes) :
    Accepts request maxBodyBytes body ↔ IsResponseText KeptNulFree request body := by
  constructor
  · intro haccepts
    obtain ⟨v, bs, hasAnyData, htext, hfits, hbs, -⟩ := accepts_spec h hbody haccepts
    exact ⟨v, bs, hasAnyData, htext, hfits, hbs⟩
  · rintro ⟨v, bs, hasAnyData, htext, hfits, hbs⟩
    obtain ⟨ms, hms⟩ : ∃ ms, v = .object ms := by
      obtain ⟨ms, -, hms, -⟩ := hbs
      exact ⟨ms, hms⟩
    subst hms
    obtain ⟨c₁, hf⟩ := foldlM_of_isResponse hbs
    have houtcome := (outcome_iff h hbody).2
      ⟨ms, c₁, hasAnyData, htext, (fits_of_text htext).2 hfits, hf, rfl⟩
    unfold Accepts
    unfold Parser.outcome at houtcome
    cases herr : (parseBody request maxBodyBytes body).error with
    | none => rfl
    | some e => rw [herr] at houtcome; cases houtcome

/-! ### A source that hides a U+0000 -/

/-- A weaker demand on the source. -/
theorem IsBucket.imp {clean clean' : List UInt8 → Prop} {request : Request} {v : Value}
    {b : Bucket} (h : IsBucket clean request v b) (hclean : clean b.source → clean' b.source) :
    IsBucket clean' request v b := by
  obtain ⟨ms, start, digits, rfl, ⟨hvs, hne, hs⟩, hrest⟩ := h
  exact ⟨ms, start, digits, rfl, ⟨hvs, hne, hclean hs⟩, hrest⟩

/-- A weaker demand on every source. -/
theorem IsResponse.imp {clean clean' : List UInt8 → Prop} {request : Request} {v : Value}
    {bs : List Bucket} {hasAnyData : Bool} (h : IsResponse clean request v bs hasAnyData)
    (hclean : ∀ b ∈ bs, clean b.source → clean' b.source) :
    IsResponse clean' request v bs hasAnyData := by
  obtain ⟨ms, items, rfl, ⟨hv, hbs⟩, hrest⟩ := h
  refine ⟨ms, items, rfl, ⟨hv, ?_⟩, hrest⟩
  clear hv hrest
  induction hbs with
  | nil => exact .nil
  | cons hb _ ih =>
    exact .cons (hb.imp (hclean _ List.mem_cons_self))
      (ih fun b hb ↦ hclean b (List.mem_cons_of_mem _ hb))

/-- The source meets the demand. -/
theorem IsBucket.clean {clean : List UInt8 → Prop} {request : Request} {v : Value} {b : Bucket}
    (h : IsBucket clean request v b) : clean b.source := by
  obtain ⟨ms, start, digits, -, ⟨-, -, hs⟩, -⟩ := h
  exact hs

/-- Every source does. -/
theorem IsResponse.clean {clean : List UInt8 → Prop} {request : Request} {v : Value}
    {bs : List Bucket} {hasAnyData : Bool} (h : IsResponse clean request v bs hasAnyData) :
    ∀ b ∈ bs, clean b.source := by
  obtain ⟨ms, items, -, ⟨-, hbs⟩, -⟩ := h
  induction hbs with
  | nil => simp
  | cons hb _ ih =>
    intro b' hb'
    rcases List.mem_cons.1 hb' with rfl | hb'
    · exact hb.clean
    · exact ih b' hb'

/-- A value is one bucket at most. -/
theorem isBucket_unique {clean clean' : List UInt8 → Prop} {request : Request} {v : Value}
    {b b' : Bucket} (h : IsBucket clean request v b) (h' : IsBucket clean' request v b') :
    b = b' := by
  obtain ⟨ms, start, digits, rfl, ⟨hvs, -⟩, -, hvn, -, hvalue⟩ := h
  obtain ⟨ms', start', digits', hms, ⟨hvs', -⟩, -, hvn', -, hvalue'⟩ := h'
  obtain rfl := Value.object.inj hms
  have hsource := Value.string.inj (List.cons.inj (hvs.symm.trans hvs')).1
  have hdigits := Value.number.inj (List.cons.inj (hvn.symm.trans hvn')).1
  obtain ⟨source, total⟩ := b
  obtain ⟨source', total'⟩ := b'
  have htotal : total = total' := UInt64.toNat_inj.1 (by rw [← hvalue, ← hvalue', hdigits])
  rw [htotal, show source = source' from hsource]

/-- Values are one list of buckets at most. -/
theorem isBuckets_unique {clean clean' : List UInt8 → Prop} {request : Request} {vs : List Value}
    {bs bs' : List Bucket} (h : List.Forall₂ (IsBucket clean request) vs bs)
    (h' : List.Forall₂ (IsBucket clean' request) vs bs') : bs = bs' := by
  induction h generalizing bs' with
  | nil => cases h' with | nil => rfl
  | cons hb _ ih =>
    cases h' with
    | cons hb' hbs' => rw [isBucket_unique hb hb', ih hbs']

/-- A value is one response at most. -/
theorem isResponse_unique {clean clean' : List UInt8 → Prop} {request : Request} {v : Value}
    {bs bs' : List Bucket} {any any' : Bool} (h : IsResponse clean request v bs any)
    (h' : IsResponse clean' request v bs' any') : bs = bs' := by
  obtain ⟨ms, items, rfl, ⟨hv, hbs⟩, -⟩ := h
  obtain ⟨ms', items', hms, ⟨hv', hbs'⟩, -⟩ := h'
  obtain rfl := Value.object.inj hms
  obtain rfl := Value.array.inj (List.cons.inj (hv.symm.trans hv')).1
  exact isBuckets_unique hbs hbs'

/-- The body is a response but for its sources: none has a U+0000 in the first 1024 bytes, and one
has a U+0000 after them. -/
def HidesNul (request : Request) (body : List UInt8) : Prop :=
  ∃ v bs hasAnyData, IsJsonText v body ∧ FitsParser v ∧
    IsResponse (fun _ ↦ True) request v bs hasAnyData ∧
    (∀ b ∈ bs, KeptNulFree b.source) ∧ ∃ b ∈ bs, ¬ NulFree b.source

/-- The contract asks for no more than what can be seen, unless a U+0000 is hidden. -/
theorem accepts_iff_responseText {request : Request} {maxBodyBytes : ℕ} {body : List UInt8}
    (h : ValidRequest request maxBodyBytes) (hbody : body.length ≤ maxBodyBytes) :
    (Accepts request maxBodyBytes body ↔ IsResponseText NulFree request body) ↔
      ¬ HidesNul request body := by
  rw [accepts_iff h hbody]
  constructor
  · rintro hiff ⟨v, bs, any, htext, hfits, hbs, hkept, b, hb, hnul⟩
    obtain ⟨v', bs', any', htext', -, hbs'⟩ :=
      hiff.1 ⟨v, bs, any, htext, hfits, hbs.imp fun b hb _ ↦ hkept b hb⟩
    obtain rfl := Rfc8259.isJsonText_unique htext htext'
    obtain rfl := isResponse_unique hbs hbs'
    exact hnul (hbs'.clean b hb)
  · intro hnot
    constructor
    · rintro ⟨v, bs, any, htext, hfits, hbs⟩
      refine ⟨v, bs, any, htext, hfits, hbs.imp fun b hb _ ↦ ?_⟩
      by_contra hnul
      exact hnot ⟨v, bs, any, htext, hfits, hbs.imp fun _ _ _ ↦ trivial, hbs.clean, b, hb, hnul⟩
    · rintro ⟨v, bs, any, htext, hfits, hbs⟩
      exact ⟨v, bs, any, htext, hfits, hbs.imp fun _ _ hclean ↦ hclean.kept⟩

/-- **The parser's language and its meaning.** On a body within the limits the parser agrees with
the contract exactly when no source hides a U+0000 behind its 1024th byte; and the candidate of an
accepted body is what the response it spells amounts to. -/
theorem parser_language_and_meaning {request : Request} {maxBodyBytes : ℕ} {body : List UInt8}
    (h : ValidRequest request maxBodyBytes) (hbody : body.length ≤ maxBodyBytes) :
    ((Accepts request maxBodyBytes body ↔ IsResponseText NulFree request body) ↔
      ¬ HidesNul request body) ∧
    (Accepts request maxBodyBytes body → ∃ v bs hasAnyData, IsJsonText v body ∧ FitsParser v ∧
      IsResponse KeptNulFree request v bs hasAnyData ∧
      Counts request bs hasAnyData (parseBody request maxBodyBytes body).candidate) :=
  ⟨accepts_iff_responseText h hbody, accepts_spec h hbody⟩

/-- A body with one bucket is accepted, and is what it amounts to. -/
theorem parser_language_and_meaning_codex :
    let request : Request := ⟨20260715, .utc, 20000⟩
    (Accepts request 4096 codexBody ∧
      (parseBody request 4096 codexBody).candidate.totalTokens = 42) ∧
    ((Accepts request 4096 codexBody ↔ IsResponseText NulFree request codexBody) ↔
      ¬ HidesNul request codexBody) ∧
    ∃ v bs hasAnyData, IsJsonText v codexBody ∧ FitsParser v ∧
      IsResponse KeptNulFree request v bs hasAnyData ∧
      Counts request bs hasAnyData (parseBody request 4096 codexBody).candidate := by
  intro request
  have hrequest : ValidRequest request 4096 := ⟨by decide, by decide, by decide, by decide⟩
  have hlength : codexBody.length ≤ 4096 := by decide +kernel
  have haccepts : Accepts request 4096 codexBody :=
    show (parseBody request 4096 codexBody).error = none by decide +kernel
  obtain ⟨hlanguage, hmeaning⟩ := parser_language_and_meaning hrequest hlength
  exact ⟨⟨haccepts, by decide +kernel⟩, hlanguage, hmeaning haccepts⟩

/-! #### A source of 1024 letters and U+0000 -/

/-- Plain ASCII, which needs no escape. -/
def Plain (b : UInt8) : Prop := 0x20 ≤ b ∧ b < 0x80 ∧ b ≠ 0x22 ∧ b ≠ 0x5C

instance (b : UInt8) : Decidable (Plain b) := inferInstanceAs (Decidable (_ ∧ _))

/-- Plain bytes are their own characters. -/
theorem chars_plain_append {s raw text : List UInt8} (hs : ∀ b ∈ s, Plain b)
    (h : Rfc8259.Chars raw text) : Rfc8259.Chars (s ++ raw) (s ++ text) := by
  induction s with
  | nil => exact h
  | cons b s ih =>
    have hrest := ih fun b hb ↦ hs b (List.mem_cons_of_mem _ hb)
    obtain ⟨hctl, hascii, hquote, hslash⟩ := hs b List.mem_cons_self
    have hctl : 0x20 ≤ b.toNat := hctl
    have hascii : b.toNat < 0x80 := hascii
    have hscalar : Utf8.IsScalar b.toNat := ⟨by omega, by omega⟩
    have hchar : (Char.ofNat b.toNat).toNat = b.toNat := Utf8.toNat_ofNat hscalar
    have hencode : String.utf8EncodeChar (Char.ofNat b.toNat) = [b] := by
      rw [Utf8.utf8EncodeChar_ofNat hscalar, Utf8.encode, if_pos hascii, UInt8.ofNat_toNat]
    have hne : ∀ c : Char, c.toNat < 0x80 → b ≠ UInt8.ofNat c.toNat → Char.ofNat b.toNat ≠ c := by
      rintro c - hne hc
      rw [← hc, hchar, UInt8.ofNat_toNat] at hne
      exact hne rfl
    have hcons := Rfc8259.Chars.unescaped (Char.ofNat b.toNat) (by rw [hchar]; exact hctl)
      (hne '"' (by decide) hquote) (hne '\\' (by decide) hslash) hrest
    rw [hencode] at hcons
    exact hcons

/-- Plain bytes between quotes are a string. -/
theorem isString_plain {s : List UInt8} (hs : s.all fun b ↦ decide (Plain b)) :
    Rfc8259.IsString s (0x22 :: s ++ [0x22]) := by
  have hplain : ∀ b ∈ s, Plain b := fun b hb ↦ of_decide_eq_true (List.all_eq_true.1 hs b hb)
  have h := chars_plain_append hplain .nil
  rw [List.append_nil] at h
  exact ⟨s, h, rfl⟩

/-- The source, decoded and as written. -/
def longSource : List UInt8 := List.replicate 1024 0x61 ++ [0]

def longSourceText : List UInt8 :=
  0x22 :: (List.replicate 1024 0x61 ++ [0x5C, 0x75, 0x30, 0x30, 0x30, 0x30]) ++ [0x22]

def longSourceStart : List UInt8 :=
  ascii ['2', '0', '2', '6', '-', '0', '7', '-', '1', '5', 'T', '0', '0', ':', '0', '0', ':',
    '0', '0', 'Z']

/-- The value of the body. -/
def longSourceBucket : List (List UInt8 × Value) :=
  [(keySource.bytes, .string longSource), (keyBucketStart.bytes, .string longSourceStart),
    (keyTotalTokens.bytes, .number [0x31])]

def longSourceMembers : List (List UInt8 × Value) :=
  [(keyBuckets.bytes, .array [.object longSourceBucket]), (keyHasAnyData.bytes, .bool true)]

def quoted (s : List UInt8) : List UInt8 := 0x22 :: s ++ [0x22]

def longSourceBucketText : List UInt8 :=
  0x7B :: (quoted keySource.bytes ++ 0x3A :: (longSourceText ++ 0x2C ::
    (quoted keyBucketStart.bytes ++ 0x3A :: (quoted longSourceStart ++ 0x2C ::
      (quoted keyTotalTokens.bytes ++ 0x3A :: [0x31]))))) ++ [0x7D]

/-- One bucket, whose source is 1024 letters and U+0000. -/
def longSourceBody : List UInt8 :=
  0x7B :: (quoted keyBuckets.bytes ++ 0x3A :: (0x5B :: longSourceBucketText ++ [0x5D] ++ 0x2C ::
    (quoted keyHasAnyData.bytes ++ 0x3A :: [0x74, 0x72, 0x75, 0x65]))) ++ [0x7D]

/-- One member. -/
theorem isMembers_singleton {k s b : List UInt8} {v : Value} (hk : Rfc8259.IsString k s)
    (hv : Rfc8259.IsText v b) : Rfc8259.IsMembers [(k, v)] (s ++ 0x3A :: b) :=
  ⟨[], s, [], [], b, [], .nil, hk, .nil, .nil, hv, .nil, by simp⟩

/-- A member before others. -/
theorem isMembers_cons {k s b r : List UInt8} {v : Value} {m : List UInt8 × Value}
    {ms : List (List UInt8 × Value)} (hk : Rfc8259.IsString k s) (hv : Rfc8259.IsText v b)
    (hr : Rfc8259.IsMembers (m :: ms) r) :
    Rfc8259.IsMembers ((k, v) :: m :: ms) (s ++ 0x3A :: (b ++ 0x2C :: r)) :=
  ⟨[], s, [], [], b, [], r, .nil, hk, .nil, .nil, hv, .nil, hr, by simp⟩

/-- The body is the text of its value. -/
theorem isJsonText_longSource : IsJsonText (.object longSourceMembers) longSourceBody := by
  have hnul : Rfc8259.Chars [0x5C, 0x75, 0x30, 0x30, 0x30, 0x30] [0] :=
    .unicode (Char.ofNat 0) (by decide) .nil
  have hletters : ∀ b ∈ List.replicate 1024 (0x61 : UInt8), Plain b := by
    intro b hb
    rw [List.eq_of_mem_replicate hb]
    decide
  have hsource : Rfc8259.IsString longSource longSourceText :=
    ⟨_, chars_plain_append hletters hnul, rfl⟩
  have hone : Rfc8259.IsText (.number [0x31]) [0x31] :=
    ⟨rfl, [], [0x31], [], [], rfl, Or.inl rfl,
      Or.inr ⟨0x31, [], rfl, by decide, by decide, by simp⟩,
      Or.inl rfl, Or.inl rfl⟩
  have hbucket : Rfc8259.IsText (.object longSourceBucket) longSourceBucketText :=
    ⟨_, rfl, isMembers_cons (isString_plain (by decide)) hsource
      (isMembers_cons (isString_plain (by decide)) (isString_plain (by decide))
        (isMembers_singleton (isString_plain (by decide)) hone))⟩
  have harray : Rfc8259.IsText (.array [.object longSourceBucket])
      (0x5B :: longSourceBucketText ++ [0x5D]) :=
    ⟨_, rfl, [], _, [], .nil, hbucket, .nil, by simp⟩
  have hobject : Rfc8259.IsText (.object longSourceMembers) longSourceBody :=
    ⟨_, rfl, isMembers_cons (isString_plain (by decide)) harray
      (isMembers_singleton (isString_plain (by decide)) rfl)⟩
  exact ⟨[], _, [], .nil, hobject, .nil, by simp⟩

/-- **The failing body** meets every other demand. -/
theorem hidesNul_longSource : HidesNul ⟨20260715, .utc, 20000⟩ longSourceBody := by
  have hnul : 0 ∈ longSource := List.mem_append_right _ (List.mem_singleton_self _)
  refine ⟨_, [⟨longSource, 1⟩], true, isJsonText_longSource, ?_, ?_, ?_, ?_⟩
  · refine ⟨?_, by decide⟩
    intro n hn
    simp only [longSourceMembers, longSourceBucket, Value.tokens, Rfc8259.membersTokens,
      Rfc8259.itemsTokens] at hn
    have hn : n = [0x31] := by simpa using hn
    rw [hn]
    decide
  · have hbucket : IsBucket (fun _ ↦ True) ⟨20260715, .utc, 20000⟩ (.object longSourceBucket)
        ⟨longSource, 1⟩ :=
      ⟨longSourceBucket, longSourceStart, [0x31], rfl, ⟨rfl, List.ne_nil_of_mem hnul, trivial⟩,
        ⟨rfl, by decide, by decide⟩, rfl, List.forall_mem_singleton.2 (by decide), by decide⟩
    exact ⟨longSourceMembers, [.object longSourceBucket], rfl, ⟨rfl, .cons hbucket .nil⟩, rfl,
      by decide, by decide, by decide⟩
  · intro b hb
    rw [List.mem_singleton.1 hb]
    show 0 ∉ longSource.take 1024
    rw [longSource, List.take_left' List.length_replicate]
    intro h
    exact absurd (List.eq_of_mem_replicate h) (by decide)
  · exact ⟨_, List.mem_singleton_self _, fun h ↦ h hnul⟩

/-- **A U+0000 is let through.** The test suite and the contract refuse a source with a U+0000; this
one is accepted. -/
theorem accepts_longSource :
    let request : Request := ⟨20260715, .utc, 20000⟩
    ValidRequest request 4096 ∧ longSourceBody.length ≤ 4096 ∧
      ¬ (Accepts request 4096 longSourceBody ↔ IsResponseText NulFree request longSourceBody) := by
  have hvalid : ValidRequest ⟨20260715, .utc, 20000⟩ 4096 :=
    ⟨by decide, by decide, by decide, by decide⟩
  have hlength : longSourceBody.length ≤ 4096 := by
    simp [longSourceBody, longSourceBucketText, longSourceText, longSourceStart, quoted, ascii,
      keyBuckets, keyHasAnyData, keySource, keyBucketStart, keyTotalTokens, -List.reduceReplicate]
  exact ⟨hvalid, hlength, fun h ↦
    (accepts_iff_responseText hvalid hlength).1 h hidesNul_longSource⟩

end VibeUsage
