import VibeUsage.Cache.Codec
import VibeUsage.Cache.Dictionary

/-!
# Replacing a day

`choose_slot` stops at the first slot that is unused or has the date, and takes the smallest date
only when there is neither. So a slot that has the date is overwritten unless an unused slot comes
first; there the date is stored twice (`vibeCacheReplaceDay_admitted_iff`). The caches this code
builds have their unused slots at the end, where that cannot happen.

`chooseSlot_cases` reads the loop as a choice, `vibeCacheReplaceDay_cases` the function as a failure
or one `Replaces`. The condition on the cache before the call, `HiddenDay`, is needed in both
directions: with it the cache that results is not valid, and the next `validate_cache` refuses it.
-/

namespace VibeUsage

variable {cache : VibeCache} {candidate : DayCandidate} {fetchedAt : Int64}

/-! ### The slot -/

/-- Two ways the loop ends: at the first slot that is unused or has the date, or, when every slot
has another date, with the smallest date. -/
theorem chooseSlotFrom_cases (days : Vector DailySlot cacheDays) (key : Int32)
    (l : List (Fin cacheDays)) (oldest : Fin cacheDays) :
    (∃ l₁ l₂, l = l₁ ++ chooseSlotFrom days key l oldest :: l₂ ∧
      (∀ j ∈ l₁, days[j].valid = true ∧ days[j].dateKey ≠ key) ∧
      (days[chooseSlotFrom days key l oldest].valid = true →
        days[chooseSlotFrom days key l oldest].dateKey = key)) ∨
    (∀ j ∈ l, days[j].valid = true ∧ days[j].dateKey ≠ key) ∧
      days[chooseSlotFrom days key l oldest].dateKey ≤ days[oldest].dateKey ∧
      ∀ j ∈ l, days[chooseSlotFrom days key l oldest].dateKey ≤ days[j].dateKey := by
  induction l generalizing oldest with
  | nil =>
    exact Or.inr ⟨by simp, Int32.le_refl _, by simp⟩
  | cons i l ih =>
    by_cases hdate : days[i].valid = true ∧ days[i].dateKey = key
    · have hchoose : chooseSlotFrom days key (i :: l) oldest = i := by
        rw [chooseSlotFrom, if_pos hdate]
      simp only [hchoose]
      exact Or.inl ⟨[], l, rfl, by simp, fun _ ↦ hdate.2⟩
    by_cases hvalid : days[i].valid = true
    · have hother : days[i].dateKey ≠ key := fun h ↦ hdate ⟨hvalid, h⟩
      have hchoose : chooseSlotFrom days key (i :: l) oldest = chooseSlotFrom days key l
          (if days[i].dateKey < days[oldest].dateKey then i else oldest) := by
        rw [chooseSlotFrom, if_neg hdate, if_neg (not_not.2 hvalid)]
      simp only [hchoose]
      -- The slot has another date: the loop goes on with the smaller of the two.
      rcases ih (if days[i].dateKey < days[oldest].dateKey then i else oldest) with
        ⟨l₁, l₂, hl, hprior, hend⟩ | ⟨hall, hle, hmin⟩
      · refine Or.inl ⟨i :: l₁, l₂, by rw [List.cons_append, ← hl], ?_, hend⟩
        intro j hj
        rcases List.mem_cons.1 hj with rfl | hj
        · exact ⟨hvalid, hother⟩
        · exact hprior j hj
      · refine Or.inr ⟨?_, ?_, ?_⟩
        · intro j hj
          rcases List.mem_cons.1 hj with rfl | hj
          · exact ⟨hvalid, hother⟩
          · exact hall j hj
        · refine Int32.le_trans hle ?_
          split
          · exact Int32.le_of_lt (by assumption)
          · exact Int32.le_refl _
        · intro j hj
          rcases List.mem_cons.1 hj with rfl | hj
          · refine Int32.le_trans hle ?_
            split
            · exact Int32.le_refl _
            · exact Int32.not_lt.1 (by assumption)
          · exact hmin j hj
    · have hchoose : chooseSlotFrom days key (i :: l) oldest = i := by
        rw [chooseSlotFrom, if_neg hdate, if_pos hvalid]
      simp only [hchoose]
      exact Or.inl ⟨[], l, rfl, by simp, fun h ↦ absurd h hvalid⟩

/-- Every slot before it is in use with another date. -/
def PriorOther (cache : VibeCache) (key : Int32) (slot : Fin cacheDays) : Prop :=
  ∀ prior < slot, cache.days[prior].valid = true ∧ cache.days[prior].dateKey ≠ key

/-- Every slot is in use with another date. -/
def FullOther (cache : VibeCache) (key : Int32) : Prop :=
  ∀ day : Fin cacheDays, cache.days[day].valid = true ∧ cache.days[day].dateKey ≠ key

/-- **What `choose_slot` chooses.** -/
theorem chooseSlot_cases (cache : VibeCache) (key : Int32) :
    (PriorOther cache key (chooseSlot cache key) ∧
      (cache.days[chooseSlot cache key].valid = true →
        cache.days[chooseSlot cache key].dateKey = key)) ∨
    FullOther cache key ∧
      ∀ day : Fin cacheDays, cache.days[chooseSlot cache key].dateKey ≤
        cache.days[day].dateKey := by
  rcases chooseSlotFrom_cases cache.days key (List.finRange cacheDays) ⟨0, by decide⟩ with
    ⟨l₁, l₂, hl, hprior, hend⟩ | ⟨hall, -, hmin⟩
  · refine Or.inl ⟨?_, hend⟩
    intro prior hlt
    have hmem := List.mem_finRange prior
    have hsorted := List.pairwise_lt_finRange cacheDays
    rw [hl] at hmem hsorted
    rcases List.mem_append.1 hmem with hmem | hmem
    · exact hprior prior hmem
    · have hafter : chooseSlot cache key ≤ prior := by
        rcases List.mem_cons.1 hmem with heq | hmem
        · exact Fin.le_of_eq heq.symm
        · exact Fin.le_of_lt
            ((List.pairwise_cons.1 (List.pairwise_append.1 hsorted).2.1).1 prior hmem)
      exact absurd hlt (Fin.not_lt.2 hafter)
  · exact Or.inr ⟨fun day ↦ hall day (List.mem_finRange day),
      fun day ↦ hmin day (List.mem_finRange day)⟩

/-! ### The candidate -/

/-- The check of the sources is its description, with the sum. -/
theorem checkSources_eq_ok {sources : List SourceTotal} {acc sum : UInt64} :
    checkSources sources acc = .ok sum ↔ NamedSources sources ∧
      acc.toNat + (sources.map fun s ↦ s.tokens.toNat).sum = sum.toNat := by
  induction sources generalizing acc with
  | nil =>
    rw [checkSources]
    simp [NamedSources, UInt64.toNat_inj]
  | cons s sources ih =>
    have hmax : sourceIdBytes = 48 := rfl
    have hname : NamedSources (s :: sources) ↔
        ¬ (s.id.boundedStrlen sourceIdBytes = 0 ∨
          s.id.boundedStrlen sourceIdBytes ≥ sourceIdBytes) ∧ NamedSources sources := by
      unfold NamedSources CString.boundedStrlen
      rw [List.forall_mem_cons]
      refine and_congr_left' ?_
      rw [← List.length_pos_iff]
      omega
    rw [checkSources, hname, List.map_cons, List.sum_cons]
    by_cases hlength : s.id.boundedStrlen sourceIdBytes = 0 ∨
        s.id.boundedStrlen sourceIdBytes ≥ sourceIdBytes
    · rw [if_pos hlength]
      exact ⟨nofun, fun h ↦ absurd hlength h.1.1⟩
    rw [if_neg hlength]
    by_cases hguard : uint64Max - acc < s.tokens
    · have hbig := (uint64Max_sub_lt_iff acc s.tokens).1 hguard
      have hsum := sum.toNat_lt
      rw [if_pos hguard]
      exact ⟨nofun, fun h ↦ absurd h.2 (by omega)⟩
    · have hsmall := mt (uint64Max_sub_lt_iff acc s.tokens).2 hguard
      rw [if_neg hguard, ih, UInt64.toNat_add_of_lt (by omega), Nat.add_assoc]
      exact and_congr_left' ⟨fun h ↦ ⟨hlength, h⟩, And.right⟩

/-- The slot starts with no tokens. -/
theorem nextSlot_tokens (candidate : DayCandidate) (fetchedAt : Int64) (i : Fin sourceSlots) :
    (nextSlot candidate fetchedAt).sourceTokens[i].toNat = 0 := by
  rw [show (nextSlot candidate fetchedAt).sourceTokens = DailySlot.zero.sourceTokens from rfl,
    zero_sourceTokens, UInt64.toNat_zero]

/-- A checked candidate fits its slot. -/
theorem nextSlot_fits {candidate : DayCandidate} (fetchedAt : Int64)
    (h : (candidate.sources.map fun s ↦ s.tokens.toNat).sum = candidate.totalTokens.toNat) :
    ∑ i : Fin sourceSlots, (nextSlot candidate fetchedAt).sourceTokens[i].toNat +
      (candidate.sources.map fun e ↦ e.tokens.toNat).sum < 2 ^ 64 := by
  have := candidate.totalTokens.toNat_lt
  simp only [nextSlot_tokens, Finset.sum_const_zero]
  omega

/-- A slot that holds a candidate, under a dictionary. -/
structure Holds (ids : Vector CString sourceSlots) (slot : DailySlot) (candidate : DayCandidate) :
    Prop where
  valid : slot.valid = true
  dateKey : slot.dateKey = candidate.dateKey
  totalTokens : slot.totalTokens = candidate.totalTokens
  hasAnyData : slot.hasAnyData = candidate.hasAnyData
  /-- Each source is counted under its entry, and under `__other__` if it has none. -/
  tokens : ∀ i : Fin sourceSlots, slot.sourceTokens[i].toNat = tokensAt ids candidate.sources i
  named : NamedSources candidate.sources
  settled : ∀ s ∈ candidate.sources, Settled ids s.id

/-- What a call that succeeds has checked, and what it stores. -/
structure Replaces (cache : VibeCache) (candidate : DayCandidate) (fetchedAt : Int64)
    (ids : Vector CString sourceSlots) (next : DailySlot) : Prop where
  date : vibeDateIsValid candidate.dateKey = true
  fetched : 0 < fetchedAt
  fetchedAt_eq : next.fetchedAt = fetchedAt
  total : (candidate.sources.map fun s ↦ s.tokens.toNat).sum = candidate.totalTokens.toNat
  validIds : ValidIds ids
  kept : Extends cache.sourceIds ids
  holds : Holds ids next candidate

/-- **`vibe_cache_replace_day`** fails and leaves the cache as it is, or stores the candidate. -/
theorem vibeCacheReplaceDay_cases (h : ValidIds cache.sourceIds) (candidate : DayCandidate)
    (fetchedAt : Int64) :
    (∃ error, vibeCacheReplaceDay cache candidate fetchedAt = (some error, cache)) ∨
      ∃ ids next, vibeCacheReplaceDay cache candidate fetchedAt =
          (none, storeDay { cache with sourceIds := ids } next) ∧
        Replaces cache candidate fetchedAt ids next := by
  unfold vibeCacheReplaceDay
  split
  · exact Or.inl ⟨_, rfl⟩
  rename_i hguard
  obtain ⟨hdate, hguard⟩ := not_or.1 hguard
  have hfetched : 0 < fetchedAt := Int64.not_le.1 (not_or.1 hguard).1
  cases hcheck : checkSources candidate.sources 0 with
  | error error => exact Or.inl ⟨error, rfl⟩
  | ok sum =>
    obtain ⟨hnamed, hsum⟩ := checkSources_eq_ok.1 hcheck
    dsimp only
    split
    · exact Or.inl ⟨_, rfl⟩
    rename_i heq
    obtain rfl := not_not.1 heq
    rw [UInt64.toNat_zero, Nat.zero_add] at hsum
    obtain ⟨ids, sourceTokens, sourcesCollapsed, hplace, hids, hkept, hsettled, htokens⟩ :=
      placeSources_spec h hnamed (nextSlot_fits fetchedAt hsum)
    refine Or.inr ⟨ids, _, by rw [hplace], not_not.1 hdate, hfetched, rfl, hsum, hids, hkept, rfl,
      rfl, rfl, rfl, ?_, hnamed, hsettled⟩
    intro i
    rw [htokens, nextSlot_tokens, Nat.zero_add]

/-! ### The cache with the new slot -/

/-- The slots after the last lines of the call. -/
theorem storeDay_days (cache : VibeCache) (next : DailySlot) (day : Fin cacheDays) :
    (storeDay cache next).days[day] =
      if chooseSlot cache next.dateKey = day then next else cache.days[day] := by
  show (cache.days.set (chooseSlot cache next.dateKey) next
    (chooseSlot cache next.dateKey).isLt)[day]
    = _
  by_cases hday : chooseSlot cache next.dateKey = day
  · subst hday
    simp
  · have hval : (chooseSlot cache next.dateKey).val ≠ day.val := fun h ↦ hday (Fin.ext h)
    simp [hday, Vector.getElem_set_ne, hval]

/-- The slots after a call that succeeds. -/
theorem Replaces.days {ids : Vector CString sourceSlots} {next : DailySlot}
    (h : Replaces cache candidate fetchedAt ids next) (day : Fin cacheDays) :
    (storeDay { cache with sourceIds := ids } next).days[day] =
      if chooseSlot cache candidate.dateKey = day then next else cache.days[day] := by
  rw [storeDay_days, h.holds.dateKey]
  rfl

/-- The slot that was chosen has the day. -/
theorem Replaces.chosen {ids : Vector CString sourceSlots} {next : DailySlot}
    (h : Replaces cache candidate fetchedAt ids next) :
    (storeDay { cache with sourceIds := ids } next).days[chooseSlot cache candidate.dateKey] =
      next :=
  (h.days _).trans (if_pos rfl)

/-- Every other slot is as it was. -/
theorem Replaces.other {ids : Vector CString sourceSlots} {next : DailySlot}
    (h : Replaces cache candidate fetchedAt ids next) (day : Fin cacheDays)
    (hne : chooseSlot cache candidate.dateKey ≠ day) :
    (storeDay { cache with sourceIds := ids } next).days[day] = cache.days[day] :=
  (h.days day).trans (if_neg hne)

/-- A slot with the date comes after an unused one. -/
def HiddenDay (cache : VibeCache) (key : Int32) : Prop :=
  ∃ unused day : Fin cacheDays, unused < day ∧ cache.days[unused].valid = false ∧
    cache.days[day].valid = true ∧ cache.days[day].dateKey = key

instance (cache : VibeCache) (key : Int32) : Decidable (HiddenDay cache key) :=
  inferInstanceAs (Decidable (∃ _ _, _))

/-- Behind no unused slot, the date is only in the slot that is chosen. -/
theorem dateKey_of_not_hidden (hcache : cache.Valid) {key : Int32} (h : ¬ HiddenDay cache key)
    {day : Fin cacheDays} (hvalid : cache.days[day].valid = true)
    (hdate : cache.days[day].dateKey = key) : chooseSlot cache key = day := by
  rcases chooseSlot_cases cache key with ⟨hprior, hend⟩ | ⟨hfull, -⟩
  · rcases lt_trichotomy (chooseSlot cache key) day with hlt | heq | hlt
    · cases hchosen : cache.days[chooseSlot cache key].valid with
      | true =>
        exact hcache.day_injective day _ hvalid hchosen ((hend hchosen).trans hdate.symm)
      | false => exact absurd ⟨_, day, hlt, hchosen, hvalid, hdate⟩ h
    · exact heq
    · exact absurd hdate (hprior day hlt).2
  · exact absurd hdate (hfull day).2

/-- A date behind an unused slot is stored once more. -/
theorem dateKey_twice {key : Int32} (h : HiddenDay cache key) :
    ∃ day : Fin cacheDays, chooseSlot cache key ≠ day ∧ cache.days[day].valid = true ∧
      cache.days[day].dateKey = key := by
  obtain ⟨unused, day, hlt, hunused, hvalid, hdate⟩ := h
  refine ⟨day, ?_, hvalid, hdate⟩
  rintro rfl
  rcases chooseSlot_cases cache key with ⟨hprior, -⟩ | ⟨hfull, -⟩
  · have hused := (hprior unused hlt).1
    rw [hunused] at hused
    cases hused
  · exact (hfull _).2 hdate

/-- The tokens of a slot are those of the candidate. -/
theorem tokens_sum_of_holds {ids : Vector CString sourceSlots} {slot : DailySlot}
    (h : Holds ids slot candidate)
    (htotal : (candidate.sources.map fun s ↦ s.tokens.toNat).sum = candidate.totalTokens.toNat) :
    ∑ i : Fin sourceSlots, slot.sourceTokens[i].toNat = slot.totalTokens.toNat := by
  rw [h.totalTokens, ← htotal, ← @sum_tokensAt ids]
  exact Finset.sum_congr rfl fun i _ ↦ h.tokens i

/-- **The update keeps a cache valid** unless it stores the date twice. -/
theorem storeDay_valid_iff (hcache : cache.Valid) {ids : Vector CString sourceSlots}
    {next : DailySlot} (h : Replaces cache candidate fetchedAt ids next) :
    (storeDay { cache with sourceIds := ids } next).Valid ↔
      ¬ HiddenDay cache candidate.dateKey := by
  have hnext := h.holds
  have hdate : next.dateKey = candidate.dateKey := hnext.dateKey
  have hchosen := h.chosen
  have hother := h.other
  constructor
  · intro hvalid hhidden
    -- The date would be in two slots, which `validate_cache` refuses.
    obtain ⟨day, hne, hday, hdateDay⟩ := dateKey_twice hhidden
    refine hne (hvalid.day_injective day _ ?_ ?_ ?_)
    · rw [hother day hne]
      exact hday
    · rw [hchosen]
      exact hnext.valid
    · rw [hchosen, hother day hne, hdate]
      exact hdateDay.symm
  · intro hhidden
    -- Each field is split on whether the slot is the one that was chosen.
    have hcases : ∀ day : Fin cacheDays, chooseSlot cache candidate.dateKey = day ∨
        chooseSlot cache candidate.dateKey ≠ day := fun day ↦ Classical.em _
    refine ⟨?_, h.validIds.length, h.validIds.other, h.validIds.injective, ?_, ?_, ?_, ?_, ?_, ?_⟩
    · exact hcache.header
    · intro day hunused
      rcases hcases day with rfl | hne
      · rw [hchosen, hnext.valid] at hunused
        cases hunused
      · rw [hother day hne] at hunused ⊢
        exact hcache.day_unused day hunused
    · intro day hday
      rcases hcases day with rfl | hne
      · rw [hchosen, hdate]
        exact h.date
      · rw [hother day hne] at hday ⊢
        exact hcache.day_date day hday
    · intro day hday
      rcases hcases day with rfl | hne
      · rw [hchosen, h.fetchedAt_eq]
        exact h.fetched
      · rw [hother day hne] at hday ⊢
        exact hcache.day_fetched day hday
    · intro day prior hday hprior heq
      rcases hcases day with rfl | hne <;> rcases hcases prior with rfl | hne'
      · rfl
      · rw [hchosen, hother prior hne', hdate] at heq
        rw [hother prior hne'] at hprior
        exact absurd (dateKey_of_not_hidden hcache hhidden hprior heq) hne'
      · rw [hchosen, hother day hne, hdate] at heq
        rw [hother day hne] at hday
        exact dateKey_of_not_hidden hcache hhidden hday heq.symm
      · rw [hother day hne, hother prior hne'] at heq
        rw [hother day hne] at hday
        rw [hother prior hne'] at hprior
        exact hcache.day_injective day prior hday hprior heq
    · intro day source hempty
      change ids[source].bytes = [] at hempty
      rcases hcases day with rfl | hne
      · rw [hchosen, ← UInt64.toNat_inj, hnext.tokens,
          tokensAt_unnamed h.validIds hnext.named hempty]
        rfl
      · rw [hother day hne]
        refine hcache.tokens_named day source ?_
        by_contra hnamed
        rw [h.kept source hnamed] at hempty
        exact hnamed hempty
    · intro day
      rcases hcases day with rfl | hne
      · rw [hchosen]
        exact tokens_sum_of_holds hnext h.total
      · rw [hother day hne]
        exact hcache.tokens_sum day

/-- A date that is there once is found. -/
theorem vibeCacheFindDay_eq_some (hcache : cache.Valid) {key : Int32} {slot : DailySlot} :
    vibeCacheFindDay cache key = some slot ↔
      ∃ day : Fin cacheDays, cache.days[day] = slot ∧ slot.valid = true ∧ slot.dateKey = key := by
  constructor
  · exact vibeCacheFindDay_of_some
  · rintro ⟨day, rfl, hvalid, rfl⟩
    cases hfind : vibeCacheFindDay cache cache.days[day].dateKey with
    | none => exact absurd ⟨hvalid, rfl⟩ (vibeCacheFindDay_eq_none.1 hfind day)
    | some slot =>
      obtain ⟨day', rfl, hvalid', hdate⟩ := vibeCacheFindDay_of_some hfind
      rw [hcache.day_injective day day' hvalid hvalid' hdate]

/-! ### What the decoder admits -/

/-- What decodes is valid. -/
theorem validateCache_of_decode {allocated : Bool} {input : List UInt8} {old : VibeCache}
    (h : vibeCacheDecode allocated input old = (none, cache)) : validateCache cache = true := by
  unfold vibeCacheDecode at h
  split at h
  · cases h
  cases hinto : decodeCacheInto input with
  | error error =>
    rw [hinto] at h
    cases h
  | ok decoded =>
    rw [hinto] at h
    obtain rfl := (Prod.mk.inj h).2
    unfold decodeCacheInto at hinto
    split at hinto
    · cases hinto
    dsimp only at hinto
    split at hinto
    · cases hinto
    split at hinto
    · cases hinto
    split at hinto
    · cases hinto
    split at hinto
    · cases hinto
    rename_i hvalid
    rw [← Except.ok.inj hinto]
    exact not_not.1 hvalid

/-- A cache that can be stored again, in which the candidate is found. -/
structure Admits (cache : VibeCache) (candidate : DayCandidate) (fetchedAt : Int64) : Prop where
  accepted : validateCache cache = true
  encoded : ∃ written, vibeCacheEncode cache cacheBlobMaxBytes = .ok written
  /-- No two slots have the same date. -/
  dates : ∀ day prior : Fin cacheDays, cache.days[day].valid = true →
    cache.days[prior].valid = true → cache.days[prior].dateKey = cache.days[day].dateKey →
    prior = day
  found : ∃ slot, vibeCacheFindDay cache candidate.dateKey = some slot ∧
    slot.fetchedAt = fetchedAt ∧ Holds cache.sourceIds slot candidate

/-- **When a valid cache stays valid**: exactly when the date is not behind an unused slot. -/
theorem vibeCacheReplaceDay_admitted_iff
    (h : validateCache cache = true ∨
      ∃ allocated input old, vibeCacheDecode allocated input old = (none, cache))
    (hok : (vibeCacheReplaceDay cache candidate fetchedAt).1 = none) :
    Admits (vibeCacheReplaceDay cache candidate fetchedAt).2 candidate fetchedAt ↔
      ¬ HiddenDay cache candidate.dateKey := by
  have hvalid : validateCache cache = true := by
    rcases h with h | ⟨allocated, input, old, hdecode⟩
    · exact h
    · exact validateCache_of_decode hdecode
  have hcache := validateCache_iff.1 hvalid
  rcases vibeCacheReplaceDay_cases hcache.ids candidate fetchedAt with
    ⟨error, herror⟩ | ⟨ids, next, hreplace, hspec⟩
  · rw [herror] at hok
    cases hok
  rw [hreplace]
  constructor
  · intro hadmits
    exact (storeDay_valid_iff hcache hspec).1 (validateCache_iff.1 hadmits.accepted)
  · intro hhidden
    have hnew := (storeDay_valid_iff hcache hspec).2 hhidden
    refine ⟨validateCache_iff.2 hnew, ⟨_, vibeCacheEncode_eq (validateCache_iff.2 hnew)⟩,
      hnew.day_injective, next, ?_, hspec.fetchedAt_eq, hspec.holds⟩
    rw [vibeCacheFindDay_eq_some hnew]
    exact ⟨_, hspec.chosen, hspec.holds.valid, hspec.holds.dateKey⟩

/-- A cache whose one day is in its second slot. -/
def gapCache : VibeCache :=
  { oneDay with days := Vector.ofFn fun day ↦
      if day.val = 1 then oneDay.days.toList.headD .zero else .zero }

/-- The day of that cache, fetched again. -/
def gapCandidate : DayCandidate :=
  { dateKey := 20260715, totalTokens := 9, sources := [⟨otherSourceId, 9⟩], bucketCount := 1
    hasAnyData := true, sourcesCollapsed := false }

/-- A cache with one day, and another day. -/
theorem vibeCacheReplaceDay_admitted_iff_oneDay :
    Admits (vibeCacheReplaceDay oneDay gapCandidate 1784073601).2 gapCandidate 1784073601 ↔
      ¬ HiddenDay oneDay gapCandidate.dateKey :=
  vibeCacheReplaceDay_admitted_iff (Or.inl (by decide +kernel)) (by decide +kernel)

/-- The blob of that cache decodes, and the update is refused by every later check. -/
theorem not_admits_gapCache :
    vibeCacheDecode true (blobOf gapCache) gapCache = (none, { gapCache with persisted := true }) ∧
      (vibeCacheReplaceDay { gapCache with persisted := true } gapCandidate 1784073601).1 = none ∧
      validateCache
        (vibeCacheReplaceDay { gapCache with persisted := true } gapCandidate 1784073601).2 =
          false ∧
      ¬ Admits (vibeCacheReplaceDay { gapCache with persisted := true } gapCandidate 1784073601).2
        gapCandidate 1784073601 := by
  have hrefused : validateCache
      (vibeCacheReplaceDay { gapCache with persisted := true } gapCandidate 1784073601).2 =
        false := by
    decide +kernel
  refine ⟨?_, by decide +kernel, hrefused, ?_⟩
  · unfold vibeCacheDecode
    rw [decodeCacheInto_blobOf (by decide +kernel), if_neg (by decide)]
  · intro hadmits
    have haccepted := hadmits.accepted
    rw [hrefused] at haccepted
    cases haccepted

end VibeUsage
