import VibeUsage.Cache.Model

/-!
# What `validate_cache` accepts

The loops of `validate_cache` compare each slot with the prior ones and add tokens while the sum
fits. What they establish is stated here for the whole cache: ids and dates are not repeated, an
unused slot is a zeroed one, and the tokens of a slot sum to its total over `ℕ`.

`validateCache_iff` is used in both directions: whatever the decoder accepts has the invariant, and
an update that keeps the invariant is accepted by the next check. The quantifiers run over the slots
by their index (`Fin cacheDays`), since slots are found by comparing dates and not by their order.
-/

namespace VibeUsage

/-! ### Sums -/

/-- The guarded sum is the sum, when that fits. -/
theorem sumTokens_eq_some {tokens : List UInt64} {sum : UInt64} :
    sumTokens tokens = some sum ↔ (tokens.map UInt64.toNat).sum = sum.toNat := by
  have hrun : ∀ (tokens : List UInt64) (acc : UInt64),
      tokens.foldlM (fun sum tokens ↦
        if uint64Max - sum < tokens then none else some (sum + tokens)) acc = some sum ↔
      acc.toNat + (tokens.map UInt64.toNat).sum = sum.toNat := by
    intro tokens
    induction tokens with
    | nil =>
      intro acc
      simp [UInt64.toNat_inj]
    | cons t tokens ih =>
      intro acc
      rw [List.foldlM_cons, List.map_cons, List.sum_cons]
      by_cases hguard : uint64Max - acc < t
      · have hbig := (uint64Max_sub_lt_iff acc t).1 hguard
        have hsum := sum.toNat_lt
        rw [if_pos hguard]
        constructor
        · intro h
          cases h
        · omega
      · have hsmall := mt (uint64Max_sub_lt_iff acc t).2 hguard
        rw [if_neg hguard, Option.bind_eq_bind, Option.bind_some, ih,
          UInt64.toNat_add_of_lt (by omega), Nat.add_assoc]
  rw [sumTokens, hrun, UInt64.toNat_zero, Nat.zero_add]

/-- A sum over the slots of a vector. -/
theorem sum_toList_map {α : Type*} {n : ℕ} (v : Vector α n) (f : α → ℕ) :
    (v.toList.map f).sum = ∑ i : Fin n, f v[i] := by
  have hlist : v.toList.map f = List.ofFn fun i : Fin n ↦ f v[i] := by
    apply List.ext_getElem
    · simp
    · intro i h h'
      simp
  rw [hlist, List.sum_ofFn]

/-! ### The cache as a whole -/

/-- What holds of a cache that passes the checks. -/
structure VibeCache.Valid (cache : VibeCache) : Prop where
  header : validHeader cache = true
  /-- Every id has a terminator. -/
  id_length : ∀ source : Fin sourceSlots, cache.sourceIds[source].bytes.length < sourceIdBytes
  /-- The last id is that of the overflow bucket. -/
  id_other : cache.sourceIds[otherIndex] = otherSourceId
  /-- No id is there twice. -/
  id_injective : ∀ source prior : Fin sourceSlots, cache.sourceIds[source].bytes ≠ [] →
    cache.sourceIds[prior] = cache.sourceIds[source] → prior = source
  /-- An unused slot is zeroed. -/
  day_unused : ∀ day : Fin cacheDays, cache.days[day].valid = false → cache.days[day] = .zero
  day_date : ∀ day : Fin cacheDays, cache.days[day].valid →
    vibeDateIsValid cache.days[day].dateKey = true
  day_fetched : ∀ day : Fin cacheDays, cache.days[day].valid → 0 < cache.days[day].fetchedAt
  /-- No date is there twice. -/
  day_injective : ∀ day prior : Fin cacheDays, cache.days[day].valid → cache.days[prior].valid →
    cache.days[prior].dateKey = cache.days[day].dateKey → prior = day
  /-- Tokens are counted under ids. -/
  tokens_named : ∀ (day : Fin cacheDays) (source : Fin sourceSlots),
    cache.sourceIds[source].bytes = [] → cache.days[day].sourceTokens[source] = 0
  /-- The tokens of a day sum to its total. -/
  tokens_sum : ∀ day : Fin cacheDays,
    ∑ source : Fin sourceSlots, cache.days[day].sourceTokens[source].toNat =
      cache.days[day].totalTokens.toNat

/-- Checking each element against the prior ones is checking every pair. -/
theorem forall_prior_iff {n : ℕ} {P : Fin n → Prop} {α : Type*} {f : Fin n → α} :
    (∀ i, P i → ∀ j < i, P j → f j ≠ f i) ↔ ∀ i j, P i → P j → f j = f i → j = i := by
  constructor
  · intro h i j hi hj heq
    rcases lt_trichotomy j i with hlt | rfl | hlt
    · exact absurd heq (h i hi j hlt hj)
    · rfl
    · exact absurd heq.symm (h j hj i hlt hi)
  · intro h i hi j hlt hj heq
    exact absurd (h i j hi hj heq) (ne_of_lt hlt)

/-- A zeroed slot has no tokens. -/
theorem zero_sourceTokens (source : Fin sourceSlots) : DailySlot.zero.sourceTokens[source] = 0 := by
  simp [DailySlot.zero]

/-- The check of the dictionary is its description. -/
theorem validSource_all_iff {ids : Vector CString sourceSlots} :
    (∀ source, validSource ids source = true) ↔
      (∀ source : Fin sourceSlots, ids[source].bytes.length < sourceIdBytes) ∧
      ids[otherIndex] = otherSourceId ∧
      ∀ source prior : Fin sourceSlots, ids[source].bytes ≠ [] → ids[prior] = ids[source] →
        prior = source := by
  have hlength : ∀ source : Fin sourceSlots,
      ids[source].boundedStrlen sourceIdBytes < sourceIdBytes ↔
        ids[source].bytes.length < sourceIdBytes := by
    intro source
    unfold CString.boundedStrlen
    omega
  unfold validSource
  simp only [decide_eq_true_eq, hlength]
  constructor
  · intro h
    refine ⟨fun source ↦ (h source).1, (h otherIndex).2.1 rfl, ?_⟩
    intro source prior hne heq
    refine forall_prior_iff.1 (fun i hi ↦ (h i).2.2 hi) source prior hne ?_ heq
    rwa [heq]
  · rintro ⟨hlen, hother, hinj⟩ source
    refine ⟨hlen source, fun h ↦ h ▸ hother, ?_⟩
    intro hne prior hlt _ heq
    exact absurd (hinj source prior hne heq) (ne_of_lt hlt)

/-- The check of a day is its description. -/
theorem validDay_iff {cache : VibeCache} {day : Fin cacheDays} :
    validDay cache day = true ↔
      (cache.days[day].valid = false → cache.days[day] = .zero) ∧
      (cache.days[day].valid = true →
        vibeDateIsValid cache.days[day].dateKey = true ∧ 0 < cache.days[day].fetchedAt ∧
        (∀ prior < day, cache.days[prior].valid →
          cache.days[prior].dateKey ≠ cache.days[day].dateKey) ∧
        (∀ source : Fin sourceSlots, cache.sourceIds[source].bytes = [] →
          cache.days[day].sourceTokens[source] = 0) ∧
        ∑ source : Fin sourceSlots, cache.days[day].sourceTokens[source].toNat =
          cache.days[day].totalTokens.toNat) := by
  unfold validDay
  dsimp only
  by_cases hvalid : cache.days[day].valid = true
  · rw [if_neg (not_not.2 hvalid), decide_eq_true_eq, sumTokens_eq_some, sum_toList_map]
    simp only [hvalid, Bool.true_eq_false, false_implies, true_and, true_implies]
  · have hfalse : cache.days[day].valid = false := Bool.eq_false_iff.2 hvalid
    rw [if_pos hvalid, decide_eq_true_eq]
    simp only [hfalse, true_implies, Bool.false_eq_true, false_implies, and_true]
    constructor
    · rintro ⟨hdate, hfetched, htotal, hany, hcollapsed, htokens⟩
      have hvector : cache.days[day].sourceTokens = .replicate sourceSlots 0 := by
        apply Vector.ext
        intro i hi
        rw [Vector.getElem_replicate]
        exact htokens ⟨i, hi⟩
      cases hslot : cache.days[day]
      simp only [hslot] at hdate hfetched htotal hany hcollapsed hvector hfalse
      rw [DailySlot.zero, hdate, hfetched, htotal, hany, hcollapsed, hvector, hfalse]
    · intro h
      rw [h]
      exact ⟨rfl, rfl, rfl, rfl, rfl, zero_sourceTokens⟩

/-- **The checks establish the invariant, and nothing less.** -/
theorem validateCache_iff {cache : VibeCache} : validateCache cache = true ↔ cache.Valid := by
  have hsources : (List.finRange sourceSlots).all (validSource cache.sourceIds) = true ↔
      ∀ source, validSource cache.sourceIds source = true := by simp
  have hdays : (List.finRange cacheDays).all (validDay cache) = true ↔
      ∀ day, validDay cache day = true := by simp
  rw [validateCache, Bool.and_eq_true, Bool.and_eq_true, hsources, hdays, validSource_all_iff]
  simp only [validDay_iff]
  constructor
  · rintro ⟨⟨hheader, hlen, hother, hinj⟩, hday⟩
    refine ⟨hheader, hlen, hother, hinj, fun day ↦ (hday day).1, fun day h ↦ ((hday day).2 h).1,
      fun day h ↦ ((hday day).2 h).2.1, ?_, ?_, ?_⟩
    · exact forall_prior_iff.1 fun day h ↦ ((hday day).2 h).2.2.1
    · intro day source hempty
      cases hvalid : cache.days[day].valid with
      | true => exact ((hday day).2 hvalid).2.2.2.1 source hempty
      | false => rw [(hday day).1 hvalid, zero_sourceTokens]
    · intro day
      cases hvalid : cache.days[day].valid with
      | true => exact ((hday day).2 hvalid).2.2.2.2
      | false =>
        rw [(hday day).1 hvalid]
        simp only [zero_sourceTokens]
        decide
  · intro h
    refine ⟨⟨h.header, h.id_length, h.id_other, h.id_injective⟩, ?_⟩
    intro day
    refine ⟨h.day_unused day, fun hvalid ↦ ⟨h.day_date day hvalid, h.day_fetched day hvalid, ?_,
      h.tokens_named day, h.tokens_sum day⟩⟩
    intro prior hlt hprior heq
    exact absurd (h.day_injective day prior hvalid hprior heq) (ne_of_lt hlt)

/-- A cache with one day. -/
def oneDay : VibeCache :=
  let candidate : DayCandidate :=
    { dateKey := 20260715, totalTokens := 7, sources := [⟨otherSourceId, 7⟩], bucketCount := 1
      hasAnyData := true, sourcesCollapsed := false }
  (vibeCacheReplaceDay (vibeCacheInit 1 1 .utc) candidate 1784073600).2

/-- The candidate of a day of July 2026, with two sources. -/
def julyCandidate (day : Int32) (codex claude : UInt64) : DayCandidate :=
  let first := (vibeDayCandidateAdd (vibeDayCandidateInit (20260700 + day))
    (.ofBytes (ascii ['c', 'o', 'd', 'e', 'x'])) codex).2
  (vibeDayCandidateAdd first (.ofBytes (ascii ['c', 'l', 'a', 'u', 'd', 'e'])) claude).2

/-- A cache with three days of two sources. -/
def threeDays : VibeCache :=
  [julyCandidate 13 5 1, julyCandidate 15 42 7, julyCandidate 14 11 0].foldl
    (fun cache candidate ↦ (vibeCacheReplaceDay cache candidate 1784073600).2)
    (vibeCacheInit 1 1 .utc)

/-! ### Finding -/

/-- Every index but the last has a name. -/
theorem mem_namedIndices {source : Fin sourceSlots} :
    source ∈ namedIndices ↔ source ≠ otherIndex := by
  simp [namedIndices]

/-- A day is not found when no slot has it. -/
theorem vibeCacheFindDay_eq_none {cache : VibeCache} {key : Int32} :
    vibeCacheFindDay cache key = none ↔
      ∀ day : Fin cacheDays, ¬ (cache.days[day].valid ∧ cache.days[day].dateKey = key) := by
  unfold vibeCacheFindDay
  rw [List.find?_eq_none]
  constructor
  · intro h day hday
    refine h cache.days[day] ?_ (by simpa using hday)
    rw [Vector.mem_toList_iff]
    exact Vector.getElem_mem day.isLt
  · intro h slot hslot
    rw [Vector.mem_toList_iff] at hslot
    obtain ⟨i, hi, rfl⟩ := Vector.getElem_of_mem hslot
    have := h ⟨i, hi⟩
    simpa using this

/-- A day that is found is in a slot. -/
theorem vibeCacheFindDay_of_some {cache : VibeCache} {key : Int32} {slot : DailySlot}
    (h : vibeCacheFindDay cache key = some slot) :
    ∃ day : Fin cacheDays, cache.days[day] = slot ∧ slot.valid = true ∧ slot.dateKey = key := by
  unfold vibeCacheFindDay at h
  have hmem := List.mem_of_find?_eq_some h
  have hp := List.find?_some h
  rw [Vector.mem_toList_iff] at hmem
  obtain ⟨i, hi, hslot⟩ := Vector.getElem_of_mem hmem
  refine ⟨⟨i, hi⟩, hslot, ?_⟩
  simpa using hp

end VibeUsage
