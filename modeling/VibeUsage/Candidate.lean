import VibeUsage.Aggregate

/-!
# The day candidate stays well formed

`vibe_day_candidate_add` has five error exits. From a well-formed candidate only one of them can be
taken, when the day's total leaves 64 bits (`vibeDayCandidateAdd_spec`): the total bounds every
slot, so no slot overflows first, and at most 23 slots have a name of their own, so the slot of
`__other__` always finds room.

`DayCandidate.WellFormed` is the invariant. The two cases of an addition have a lemma each,
`addToSlot_spec` for a slot that is there and `addToSlot_new_spec` for a new one, and both say with
`Added` what the candidate then counts.
-/

namespace VibeUsage

/-- The slots of a candidate: they add up to its total, their names differ, and one of the 24 is
left for `__other__`. -/
structure DayCandidate.WellFormed (c : DayCandidate) : Prop where
  sum : (c.sources.map fun s ↦ s.tokens.toNat).sum = c.totalTokens.toNat
  nodup : (c.sources.map fun s ↦ s.id).Nodup
  named : (c.sources.filter fun s ↦ s.id ≠ otherSourceId).length ≤ sourceSlots - 1
  ids : ∀ s ∈ c.sources, s.id.bytes ≠ [] ∧ s.id.bytes.length < sourceIdBytes

/-- A new candidate is well formed. -/
theorem wellFormed_init (dateKey : Int32) : (vibeDayCandidateInit dateKey).WellFormed :=
  ⟨rfl, List.nodup_nil, Nat.zero_le _, by simp [vibeDayCandidateInit]⟩

/-! ### Lists of slots -/

/-- The sum over a list in which one entry was replaced. -/
theorem sum_map_set {α : Type} (f : α → ℕ) :
    ∀ (l : List α) (i : ℕ) (h : i < l.length) (a : α),
      ((l.set i a).map f).sum + f l[i] = (l.map f).sum + f a
  | b :: l, 0, _, a => by
    simp only [List.set_cons_zero, List.map_cons, List.sum_cons, List.getElem_cons_zero]
    omega
  | b :: l, i + 1, h, a => by
    have ih := sum_map_set f l i (by simpa using h) a
    simp only [List.set_cons_succ, List.map_cons, List.sum_cons, List.getElem_cons_succ]
    omega

/-- A part is at most the sum. -/
theorem le_sum_map {α : Type} (f : α → ℕ) {l : List α} {a : α} (h : a ∈ l) :
    f a ≤ (l.map f).sum := by
  induction l with
  | nil => cases h
  | cons b l ih =>
    rw [List.map_cons, List.sum_cons]
    rcases List.mem_cons.1 h with rfl | h
    · omega
    · have := ih h
      omega

/-- Replacing an entry by one of the same name keeps the names. -/
theorem map_id_set (tokens : UInt64) :
    ∀ {l : List SourceTotal} {i : ℕ} (h : i < l.length),
      (l.set i { l[i] with tokens }).map (fun s ↦ s.id) = l.map fun s ↦ s.id
  | b :: l, 0, _ => rfl
  | b :: l, i + 1, h => by
    have ih := map_id_set tokens (show i < l.length by simpa using h)
    simp only [List.set_cons_succ, List.map_cons, List.getElem_cons_succ]
    rw [ih]

/-- The slots of an id, counted by their ids. -/
theorem filter_length_eq (l : List SourceTotal) (p : CString → Bool) :
    (l.filter fun s ↦ p s.id).length = ((l.map fun s ↦ s.id).filter p).length := by
  rw [List.filter_map, List.length_map]
  rfl

/-! ### Adding to a slot -/

/-- The names of the slots in use, in order. -/
def DayCandidate.names (c : DayCandidate) : List CString := c.sources.map fun s ↦ s.id

/-- The names after a slot for `name` was found or made. -/
def insertName (names : List CString) (name : CString) : List CString :=
  if name ∈ names then names else names ++ [name]

/-- The tokens counted under an id. -/
def DayCandidate.tokensOf (c : DayCandidate) (id : CString) : ℕ :=
  (c.sources.map fun s ↦ if s.id = id then s.tokens.toNat else 0).sum

/-- What a successful addition to the slot `name` counts, and what it leaves as it was. -/
structure Added (c c' : DayCandidate) (name : CString) (tokens : UInt64) : Prop where
  names : c'.names = insertName c.names name
  tokensOf : ∀ id, c'.tokensOf id = c.tokensOf id + if id = name then tokens.toNat else 0
  total : c'.totalTokens.toNat = c.totalTokens.toNat + tokens.toNat
  dateKey : c'.dateKey = c.dateKey
  bucketCount : c'.bucketCount = c.bucketCount + 1
  hasAnyData : c'.hasAnyData = c.hasAnyData

/-- **A slot that there is** gets the tokens. -/
theorem addToSlot_spec {c : DayCandidate} (hc : c.WellFormed) {index : ℕ}
    (hindex : index < c.sources.length) {tokens : UInt64}
    (hfits : c.totalTokens.toNat + tokens.toNat < 2 ^ 64) :
    ∃ c', addToSlot c index tokens = (none, c') ∧ c'.WellFormed ∧
      Added c c' c.sources[index].id tokens := by
  have hget : c.sources[index]? = some c.sources[index] := List.getElem?_eq_getElem hindex
  have hmem : c.sources[index] ∈ c.sources := List.getElem_mem hindex
  have hle : c.sources[index].tokens.toNat ≤ c.totalTokens.toNat := by
    rw [← hc.sum]
    exact le_sum_map (fun s ↦ s.tokens.toNat) hmem
  have hslot : c.sources[index].tokens.toNat + tokens.toNat < 2 ^ 64 := by omega
  have hguard : ¬ uint64Max - c.sources[index].tokens < tokens := by
    rw [uint64Max_sub_lt_iff]
    omega
  refine ⟨{ c with
    sources := c.sources.set index
      { c.sources[index] with tokens := c.sources[index].tokens + tokens }
    totalTokens := c.totalTokens + tokens
    bucketCount := c.bucketCount + 1 }, ?_, ?_, ?_⟩
  · unfold addToSlot
    rw [hget]
    dsimp only
    rw [if_neg hguard]
  · have hnames := map_id_set (c.sources[index].tokens + tokens) hindex
    refine ⟨?_, ?_, ?_, ?_⟩
    -- One slot changes, and the sum with it by the same amount.
    · have hset := sum_map_set (fun s : SourceTotal ↦ s.tokens.toNat) c.sources index hindex
        { c.sources[index] with tokens := c.sources[index].tokens + tokens }
      have hsum := hc.sum
      rw [UInt64.toNat_add_of_lt hslot] at hset
      rw [UInt64.toNat_add_of_lt hfits]
      dsimp only at hset ⊢
      omega
    · show (List.map _ _).Nodup
      rw [hnames]
      exact hc.nodup
    · have hnamed := hc.named
      show (List.filter (fun s : SourceTotal ↦ decide (s.id ≠ otherSourceId)) _).length ≤ _
      rw [filter_length_eq _ fun id ↦ decide (id ≠ otherSourceId), hnames, ← filter_length_eq]
      exact hnamed
    · intro s hs
      rcases List.mem_or_eq_of_mem_set hs with hs | rfl
      · exact hc.ids s hs
      · exact hc.ids c.sources[index] hmem
  · refine ⟨?_, fun id ↦ ?_, UInt64.toNat_add_of_lt hfits, rfl, rfl, rfl⟩
    · have hin : c.sources[index].id ∈ c.names := List.mem_map.2 ⟨_, hmem, rfl⟩
      rw [insertName, if_pos hin]
      exact map_id_set (c.sources[index].tokens + tokens) hindex
    · have hset := sum_map_set (fun s : SourceTotal ↦ if s.id = id then s.tokens.toNat else 0)
        c.sources index hindex
        { c.sources[index] with tokens := c.sources[index].tokens + tokens }
      rw [UInt64.toNat_add_of_lt hslot] at hset
      unfold DayCandidate.tokensOf
      by_cases hid : c.sources[index].id = id
      · simp only [hid, if_true] at hset ⊢
        omega
      · simp only [hid, Ne.symm hid, if_false] at hset ⊢
        omega

/-! ### Finding or making the slot -/

/-- A source is found when it is there. -/
theorem findSource_lt_iff {sources : List SourceTotal} {id : CString} :
    findSource sources id < sources.length ↔ id ∈ sources.map fun s ↦ s.id := by
  unfold findSource
  rw [List.findIdx_lt_length]
  simp

/-- Otherwise the search ends behind the last. -/
theorem findSource_of_not_mem {sources : List SourceTotal} {id : CString}
    (h : id ∉ sources.map fun s ↦ s.id) : findSource sources id = sources.length := by
  have hle : findSource sources id ≤ sources.length := List.findIdx_le_length
  have hnot := mt findSource_lt_iff.1 h
  omega

/-- What is found has the id. -/
theorem getElem_findSource {sources : List SourceTotal} {id : CString}
    (h : findSource sources id < sources.length) : sources[findSource sources id].id = id := by
  have hp := List.findIdx_getElem (w := h)
  exact of_decide_eq_true hp

/-- A candidate with a fresh, empty slot. -/
theorem wellFormed_append {c : DayCandidate} (hc : c.WellFormed) {id : CString}
    (hid : id ∉ c.sources.map fun s ↦ s.id)
    (hlength : id.bytes ≠ [] ∧ id.bytes.length < sourceIdBytes)
    (hroom : id = otherSourceId ∨
      (c.sources.filter fun s ↦ s.id ≠ otherSourceId).length < sourceSlots - 1) :
    DayCandidate.WellFormed { c with sources := c.sources ++ [⟨id, 0⟩] } := by
  refine ⟨?_, ?_, ?_, ?_⟩
  · have hsum := hc.sum
    simpa using hsum
  · rw [List.map_append, List.map_singleton]
    refine List.nodup_append.2 ⟨hc.nodup, by simp, ?_⟩
    rintro a ha b hb rfl
    have hb : a = id := List.mem_singleton.1 hb
    exact hid (hb ▸ ha)
  · have hnamed := hc.named
    rw [List.filter_append, List.length_append]
    rcases hroom with rfl | hroom
    · simpa using hnamed
    · have hone : (List.filter (fun s : SourceTotal ↦ decide (s.id ≠ otherSourceId))
          [⟨id, 0⟩]).length ≤ 1 := List.length_filter_le _ _
      omega
  · intro s hs
    rcases List.mem_append.1 hs with hs | hs
    · exact hc.ids s hs
    · rw [List.mem_singleton] at hs
      subst hs
      exact hlength

/-- At most one slot is not named. -/
theorem length_le_named_add_one {l : List SourceTotal} (h : (l.map fun s ↦ s.id).Nodup) :
    l.length ≤ (l.filter fun s ↦ s.id ≠ otherSourceId).length +
      (if otherSourceId ∈ l.map fun s ↦ s.id then 1 else 0) := by
  induction l with
  | nil => simp
  | cons s l ih =>
    rw [List.map_cons, List.nodup_cons] at h
    have ih := ih h.2
    by_cases hs : s.id = otherSourceId
    · have hnot : otherSourceId ∉ l.map fun s ↦ s.id := hs ▸ h.1
      rw [if_neg hnot] at ih
      rw [List.filter_cons_of_neg (by simpa using hs), if_pos (by simp [hs]), List.length_cons]
      omega
    · rw [List.filter_cons_of_pos (by simpa using hs), List.length_cons, List.length_cons]
      by_cases hmem : otherSourceId ∈ l.map fun s ↦ s.id
      · rw [if_pos hmem] at ih
        rw [if_pos (by simpa using Or.inr (by simpa using hmem))]
        omega
      · rw [if_neg hmem] at ih
        omega

/-- **A new slot** gets the tokens. -/
theorem addToSlot_new_spec {c : DayCandidate} (hc : c.WellFormed) {id : CString}
    (hid : id ∉ c.sources.map fun s ↦ s.id)
    (hlength : id.bytes ≠ [] ∧ id.bytes.length < sourceIdBytes)
    (hroom : id = otherSourceId ∨
      (c.sources.filter fun s ↦ s.id ≠ otherSourceId).length < sourceSlots - 1)
    {tokens : UInt64} (hfits : c.totalTokens.toNat + tokens.toNat < 2 ^ 64) :
    ∃ c', addToSlot { c with sources := c.sources ++ [⟨id, 0⟩] } c.sources.length tokens =
      (none, c') ∧ c'.WellFormed ∧ Added c c' id tokens := by
  have hindex : c.sources.length < (c.sources ++ [SourceTotal.mk id 0]).length := by simp
  obtain ⟨c', hadd, hwf, hadded⟩ := addToSlot_spec (wellFormed_append hc hid hlength hroom)
    hindex hfits
  have hget : (c.sources ++ [SourceTotal.mk id 0])[c.sources.length].id = id := by simp
  rw [hget] at hadded
  refine ⟨c', hadd, hwf, ?_, fun id' ↦ ?_, hadded.total, hadded.dateKey, hadded.bucketCount,
    hadded.hasAnyData⟩
  · have hnames : DayCandidate.names { c with sources := c.sources ++ [SourceTotal.mk id 0] } =
        c.names ++ [id] := by simp [DayCandidate.names]
    have hid : id ∉ c.names := hid
    rw [hadded.names, hnames, insertName, insertName, if_neg hid, if_pos (by simp)]
  · rw [hadded.tokensOf]
    simp [DayCandidate.tokensOf]

/-- The slot an id is counted in. -/
def slotFor (c : DayCandidate) (id : CString) : CString :=
  if id ≠ otherSourceId ∧ id ∉ c.names ∧ c.sources.length ≥ sourceSlots - 1 then otherSourceId
  else id

/-- Either way the tokens are counted. -/
theorem addNormalized_spec {c : DayCandidate} (hc : c.WellFormed) {id : CString}
    (hlength : id.bytes ≠ [] ∧ id.bytes.length < sourceIdBytes) {tokens : UInt64}
    (hfits : c.totalTokens.toNat + tokens.toNat < 2 ^ 64) :
    ∃ c', addNormalized c id tokens = (none, c') ∧ c'.WellFormed ∧
      Added c c' (slotFor c id) tokens := by
  have hcount : c.sources.length ≤ (c.sources.filter fun s ↦ s.id ≠ otherSourceId).length +
      (if otherSourceId ∈ c.names then 1 else 0) := length_le_named_add_one hc.nodup
  have hnamed := hc.named
  have hshort : ∀ {s : CString}, s.bytes.length < sourceIdBytes →
      s.strncpy (sourceIdBytes - 1) = s := fun hs ↦
    CString.strncpy_of_length_le (Nat.le_pred_of_lt hs)
  unfold addNormalized
  dsimp only
  -- A source that has a slot.
  by_cases hmem : id ∈ c.names
  · have hslot : slotFor c id = id := if_neg (by tauto)
    rw [if_pos (findSource_lt_iff.2 hmem), hslot]
    have hindex := findSource_lt_iff.2 hmem
    have hid : c.sources[findSource c.sources id].id = id := getElem_findSource hindex
    have hspec := addToSlot_spec hc hindex hfits
    rw [hid] at hspec
    exact hspec
  rw [if_neg (mt findSource_lt_iff.1 hmem)]
  by_cases hfull : id ≠ otherSourceId ∧ c.sources.length ≥ sourceSlots - 1
  · -- the named slots are used up
    have hslot : slotFor c id = otherSourceId := if_pos ⟨hfull.1, hmem, hfull.2⟩
    rw [hslot]
    simp only [hfull.1, hfull.2, ne_eq, not_false_eq_true, and_self, if_true]
    have hc' : DayCandidate.WellFormed { c with sourcesCollapsed := true } :=
      ⟨hc.sum, hc.nodup, hc.named, hc.ids⟩
    have hadded : ∀ {c' : DayCandidate}, Added { c with sourcesCollapsed := true } c'
        otherSourceId tokens → Added c c' otherSourceId tokens := fun h ↦
      ⟨h.names, h.tokensOf, h.total, h.dateKey, h.bucketCount, h.hasAnyData⟩
    by_cases hother : otherSourceId ∈ c.names
    · have hindex := findSource_lt_iff.2 hother
      have hid : c.sources[findSource c.sources otherSourceId].id = otherSourceId :=
        getElem_findSource hindex
      rw [if_pos hindex]
      obtain ⟨c', hadd, hwf, h⟩ := addToSlot_spec hc' hindex hfits
      rw [hid] at h
      exact ⟨c', hadd, hwf, hadded h⟩
    · rw [if_neg hother] at hcount
      have hslots : ¬ c.sources.length ≥ sourceSlots := by
        unfold sourceSlots at hnamed ⊢
        omega
      rw [if_neg (mt findSource_lt_iff.1 hother), if_neg hslots, findSource_of_not_mem hother,
        hshort (by decide)]
      -- The last slot is kept for `__other__`, so there is room.
      obtain ⟨c', hadd, hwf, h⟩ := addToSlot_new_spec hc' hother (by decide) (Or.inl rfl) hfits
      exact ⟨c', hadd, hwf, hadded h⟩
  · have hslot : slotFor c id = id := if_neg (by tauto)
    rw [hslot]
    simp only [hfull, if_false]
    have hle : (c.sources.filter fun s ↦ s.id ≠ otherSourceId).length ≤ c.sources.length :=
      List.length_filter_le _ _
    -- A new slot: under a name only while the last slot is not reached.
    have hroom : id = otherSourceId ∨
        (c.sources.filter fun s ↦ s.id ≠ otherSourceId).length < sourceSlots - 1 := by
      by_cases hid : id = otherSourceId
      · exact Or.inl hid
      · refine Or.inr ?_
        have : ¬ c.sources.length ≥ sourceSlots - 1 := fun h ↦ hfull ⟨hid, h⟩
        omega
    have hslots : ¬ c.sources.length ≥ sourceSlots := by
      rcases hroom with rfl | hroom
      · rw [if_neg hmem] at hcount
        unfold sourceSlots at hnamed ⊢
        omega
      · split at hcount
        · unfold sourceSlots at hroom ⊢
          omega
        · unfold sourceSlots at hnamed ⊢
          omega
    rw [if_neg (mt findSource_lt_iff.1 hmem), if_neg hslots, findSource_of_not_mem hmem,
      hshort hlength.2]
    exact addToSlot_new_spec hc hmem hlength hroom hfits

/-- The id a source is counted under: one that does not fit is `__other__`. -/
def countedId (source : CString) : CString :=
  if source.bytes.length ≥ sourceIdBytes then otherSourceId else source

/-- **Adding a bucket.** From a well-formed candidate and a named source, an addition that fits in
64 bits succeeds and keeps the candidate well formed. -/
theorem vibeDayCandidateAdd_spec {c : DayCandidate} (hc : c.WellFormed) {source : CString}
    (hsource : source.bytes ≠ []) {tokens : UInt64}
    (hfits : c.totalTokens.toNat + tokens.toNat < 2 ^ 64) :
    ∃ c', vibeDayCandidateAdd c source tokens = (none, c') ∧ c'.WellFormed ∧
      Added c c' (slotFor c (countedId source)) tokens := by
  have hguard : ¬ uint64Max - c.totalTokens < tokens := by
    rw [uint64Max_sub_lt_iff]
    omega
  have hiff : source.boundedStrlen sourceIdBytes ≥ sourceIdBytes ↔
      source.bytes.length ≥ sourceIdBytes := by
    unfold CString.boundedStrlen
    omega
  unfold vibeDayCandidateAdd countedId
  rw [if_neg hsource, if_neg hguard]
  dsimp only
  by_cases hlong : source.bytes.length ≥ sourceIdBytes
  · simp only [hiff.2 hlong, hlong, if_true]
    have hc' : DayCandidate.WellFormed { c with sourcesCollapsed := true } :=
      ⟨hc.sum, hc.nodup, hc.named, hc.ids⟩
    have hother : otherSourceId.bytes ≠ [] ∧ otherSourceId.bytes.length < sourceIdBytes := by decide
    obtain ⟨c', hadd, hwf, h⟩ := addNormalized_spec hc' hother hfits
    exact ⟨c', hadd, hwf, h.names, h.tokensOf, h.total, h.dateKey, h.bucketCount, h.hasAnyData⟩
  · simp only [mt hiff.1 hlong, hlong, if_false]
    exact addNormalized_spec hc ⟨hsource, Nat.lt_of_not_ge hlong⟩ hfits

/-- An addition that does not fit is refused. -/
theorem vibeDayCandidateAdd_overflow {c : DayCandidate} {source : CString}
    (hsource : source.bytes ≠ []) {tokens : UInt64}
    (hfits : 2 ^ 64 ≤ c.totalTokens.toNat + tokens.toNat) :
    vibeDayCandidateAdd c source tokens = (some .overflow, c) := by
  unfold vibeDayCandidateAdd
  rw [if_neg hsource, if_pos ((uint64Max_sub_lt_iff _ _).2 hfits)]

end VibeUsage
