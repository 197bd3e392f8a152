import VibeUsage.Candidate
import VibeUsage.Cache.Replace

/-!
# The cache as a bounded map

From `vibe_cache_init` on, whatever is stored and however often the cache is written and read back,
the cache is a map from at most eight dates to the candidates that were stored last for them. The
used slots come first, so no date is hidden behind an unused slot and every update keeps the cache
valid; the dictionary only grows, so a stored day keeps describing its candidate.

Which dates are in the map is said without the slots: `datesWith` takes one more date, and lets the
smallest go when there are eight others. That `choose_slot` does the same is `mem_datesWith_iff`.
-/

namespace VibeUsage

/-! ### Runs -/

/-- An operation on a cache: a candidate is stored, or the cache is encoded and decoded. -/
inductive CacheOp where
  | replace (candidate : DayCandidate) (fetchedAt : Int64)
  | reload (allocated : Bool)

def CacheOp.run (cache : VibeCache) : CacheOp → Option VibeError × VibeCache
  | .replace candidate fetchedAt => vibeCacheReplaceDay cache candidate fetchedAt
  | .reload allocated =>
    match vibeCacheEncode cache cacheBlobMaxBytes with
    | .error error => (some error, cache)
    | .ok written => vibeCacheDecode allocated written cache

/-- The dates of a map that takes one more. When there are eight others, the smallest goes. -/
def datesWith (dates : Finset Int32) (key : Int32) : Finset Int32 :=
  insert key
    (if key ∉ dates ∧ dates.card = cacheDays then
      dates.filter fun date ↦ ∃ smaller ∈ dates, smaller < date
    else dates)

/-- A cache, the candidate stored last for each date, and the dates not evicted since. -/
structure History where
  cache : VibeCache
  latest : Int32 → Option DayCandidate
  dates : Finset Int32

def History.step (s : History) (op : CacheOp) : History where
  cache := (op.run s.cache).2
  latest :=
    match op, (op.run s.cache).1 with
    | .replace candidate _, none => Function.update s.latest candidate.dateKey (some candidate)
    | _, _ => s.latest
  dates :=
    match op, (op.run s.cache).1 with
    | .replace candidate _, none => datesWith s.dates candidate.dateKey
    | _, _ => s.dates

/-- The history of a run from an empty cache. -/
def History.run (generation configRevision : UInt32) (timezone : Timezone) (ops : List CacheOp) :
    History :=
  ops.foldl History.step ⟨vibeCacheInit generation configRevision timezone, fun _ ↦ none, ∅⟩

/-! ### The invariant -/

/-- A used slot has this date. -/
def HasDate (cache : VibeCache) (key : Int32) : Prop :=
  ∃ day : Fin cacheDays, cache.days[day].valid = true ∧ cache.days[day].dateKey = key

/-- A cache that maps dates to the candidates stored last for them. -/
structure IsMap (s : History) : Prop where
  valid : s.cache.Valid
  /-- The used slots come first. -/
  front : ∀ day later : Fin cacheDays, day < later → s.cache.days[later].valid = true →
    s.cache.days[day].valid = true
  day : ∀ day : Fin cacheDays, s.cache.days[day].valid = true →
    ∃ candidate, s.latest s.cache.days[day].dateKey = some candidate ∧
      Holds s.cache.sourceIds s.cache.days[day] candidate
  /-- The used slots have the dates that were stored and not evicted since. -/
  dates : ∀ key, key ∈ s.dates ↔ HasDate s.cache key

/-- What one operation does, and what it leaves as it is. -/
structure IsUpdate (cache : VibeCache) (op : CacheOp) : Prop where
  /-- An error changes nothing. -/
  error : (op.run cache).1 ≠ none → (op.run cache).2 = cache
  /-- A well-formed candidate of a date is stored. -/
  accepted : ∀ candidate fetchedAt, op = .replace candidate fetchedAt → candidate.WellFormed →
    vibeDateIsValid candidate.dateKey = true → 0 < fetchedAt → (op.run cache).1 = none
  /-- A candidate that was stored is found under its date. -/
  stored : ∀ candidate fetchedAt, op = .replace candidate fetchedAt → (op.run cache).1 = none →
    ∃ slot, vibeCacheFindDay (op.run cache).2 candidate.dateKey = some slot ∧
      slot.fetchedAt = fetchedAt ∧ Holds (op.run cache).2.sourceIds slot candidate
  /-- An entry of the dictionary is kept. -/
  dictionary : Extends cache.sourceIds (op.run cache).2.sourceIds
  /-- A day of another date is the day it was. -/
  retained : ∀ key slot, (∀ candidate fetchedAt, op = .replace candidate fetchedAt →
    key ≠ candidate.dateKey) → vibeCacheFindDay (op.run cache).2 key = some slot →
    vibeCacheFindDay cache key = some slot
  /-- A day is evicted when all slots hold other dates, and then it is the smallest. -/
  evicted : ∀ key slot, vibeCacheFindDay cache key = some slot →
    vibeCacheFindDay (op.run cache).2 key = none →
    ∃ candidate fetchedAt, op = .replace candidate fetchedAt ∧ FullOther cache candidate.dateKey ∧
      ∀ day : Fin cacheDays, key ≤ cache.days[day].dateKey

variable {s : History} {cache : VibeCache}

/-- No date is behind an unused slot. -/
theorem IsMap.not_hidden (h : IsMap s) (key : Int32) : ¬ HiddenDay s.cache key := by
  rintro ⟨unused, day, hlt, hunused, hvalid, -⟩
  have hused := h.front unused day hlt hvalid
  rw [hunused] at hused
  cases hused

/-- A new cache maps no date. -/
theorem isMap_init (generation : UInt32) {configRevision : UInt32} {timezone : Timezone}
    (hrevision : configRevision ≠ 0) (hzone : timezone.Supported) :
    IsMap ⟨vibeCacheInit generation configRevision timezone, fun _ ↦ none, ∅⟩ := by
  have hdays : ∀ day : Fin cacheDays,
      (vibeCacheInit generation configRevision timezone).days[day] = .zero := by
    intro day
    simp [vibeCacheInit]
  have hunused : ∀ day : Fin cacheDays,
      (vibeCacheInit generation configRevision timezone).days[day].valid ≠ true := by
    intro day
    rw [hdays]
    decide
  have hids : ∀ source : Fin sourceSlots,
      (vibeCacheInit generation configRevision timezone).sourceIds[source] =
        if source = otherIndex then otherSourceId else .empty := by
    intro source
    have hval : source = otherIndex ↔ sourceSlots - 1 = source.val := by
      rw [Fin.ext_iff]
      exact eq_comm
    simp only [vibeCacheInit, getElem_slot, Vector.getElem_set, hval, Vector.getElem_replicate]
  -- The fields of `Valid` and then those of the map; no slot is used, so most ask nothing.
  refine ⟨⟨?_, ?_, ?_, ?_, ?_, ?_, ?_, ?_, ?_, ?_⟩, ?_, ?_, ?_⟩
  · unfold validHeader vibeCacheInit
    rw [decide_eq_true_eq]
    exact ⟨rfl, hrevision, rfl, hzone, (by decide : (0 : Int64) ≤ 0),
      (by decide : (0 : UInt8) &&& ~~~0x7F = 0), fun h ↦ absurd rfl h,
      fun h ↦ absurd rfl h⟩
  · intro source
    rw [hids]
    split <;> decide
  · rw [hids, if_pos rfl]
  · intro source prior hne heq
    have hother : ∀ i : Fin sourceSlots,
        (vibeCacheInit generation configRevision timezone).sourceIds[i].bytes ≠ [] →
          i = otherIndex := by
      intro i hi
      by_contra hlast
      rw [hids, if_neg hlast] at hi
      exact hi rfl
    rw [hother source hne, hother prior (by rwa [heq])]
  · exact fun day _ ↦ hdays day
  · exact fun day h ↦ absurd h (hunused day)
  · exact fun day h ↦ absurd h (hunused day)
  · exact fun day _ h ↦ absurd h (hunused day)
  · intro day source _
    rw [hdays, zero_sourceTokens]
  · intro day
    rw [hdays]
    simp only [zero_sourceTokens]
    decide
  · exact fun day later _ h ↦ absurd h (hunused later)
  · exact fun day h ↦ absurd h (hunused day)
  · intro key
    constructor
    · exact fun h ↦ absurd h (Finset.notMem_empty key)
    · rintro ⟨day, h, -⟩
      exact absurd h (hunused day)

/-! ### The dates -/

/-- There are eight dates when every slot is used. -/
theorem IsMap.card_eq_iff (h : IsMap s) :
    s.dates.card = cacheDays ↔ ∀ day : Fin cacheDays, s.cache.days[day].valid = true := by
  have himage : s.dates = (Finset.univ.filter fun day : Fin cacheDays ↦
      s.cache.days[day].valid = true).image fun day ↦ s.cache.days[day].dateKey := by
    ext key
    rw [h.dates]
    simp [HasDate]
  have hinjective : Set.InjOn (fun day : Fin cacheDays ↦ s.cache.days[day].dateKey)
      (Finset.univ.filter fun day : Fin cacheDays ↦ s.cache.days[day].valid = true) := by
    intro day hday prior hprior heq
    exact h.valid.day_injective prior day (Finset.mem_filter.1 hprior).2
      (Finset.mem_filter.1 hday).2 heq
  rw [himage, Finset.card_image_of_injOn hinjective]
  constructor
  · intro hcard day
    have huniv := Finset.eq_univ_of_card _ (hcard.trans (Fintype.card_fin cacheDays).symm)
    have hmem := Finset.mem_univ day
    rw [← huniv] at hmem
    exact (Finset.mem_filter.1 hmem).2
  · intro hall
    rw [Finset.filter_true_of_mem fun day _ ↦ hall day, Finset.card_univ, Fintype.card_fin]

/-- **The slots take a date as the map does**: `choose_slot` overwrites the slot of the date or an
unused one, and the smallest date when every slot has another. -/
theorem IsMap.mem_datesWith_iff (h : IsMap s) {candidate : DayCandidate} {fetchedAt : Int64}
    {ids : Vector CString sourceSlots} {next : DailySlot}
    (hspec : Replaces s.cache candidate fetchedAt ids next) (key : Int32) :
    key ∈ datesWith s.dates candidate.dateKey ↔
      HasDate (storeDay { s.cache with sourceIds := ids } next) key := by
  have hchosen := hspec.chosen
  have hother := hspec.other
  have hhas : HasDate (storeDay { s.cache with sourceIds := ids } next) candidate.dateKey :=
    ⟨chooseSlot s.cache candidate.dateKey, by rw [hchosen]; exact hspec.holds.valid,
      by rw [hchosen]; exact hspec.holds.dateKey⟩
  -- What stays of the map, in both cases of `datesWith`.
  have hmem : key ∈ datesWith s.dates candidate.dateKey ↔ key = candidate.dateKey ∨
      key ∈ s.dates ∧ (candidate.dateKey ∉ s.dates ∧ s.dates.card = cacheDays →
        ∃ smaller ∈ s.dates, smaller < key) := by
    unfold datesWith
    rw [Finset.mem_insert]
    split
    · rename_i hfull
      rw [Finset.mem_filter]
      exact or_congr_right (and_congr_right fun _ ↦ ⟨fun h _ ↦ h, fun h ↦ h hfull⟩)
    · rename_i hroom
      exact or_congr_right ⟨fun h ↦ ⟨h, fun hfull ↦ absurd hfull hroom⟩, And.left⟩
  rw [hmem]
  constructor
  · rintro (rfl | ⟨hkey, hsmaller⟩)
    · exact hhas
    obtain ⟨day, hvalid, rfl⟩ := (h.dates key).1 hkey
    by_cases hslot : chooseSlot s.cache candidate.dateKey = day
    · rcases chooseSlot_cases s.cache candidate.dateKey with ⟨-, hend⟩ | ⟨hfull, hmin⟩
      · rw [hslot] at hend
        rw [hend hvalid]
        exact hhas
      · -- the slot has the smallest date, which stays only where a smaller one is
        have hnew : candidate.dateKey ∉ s.dates := by
          rw [h.dates]
          rintro ⟨day, -, hdate⟩
          exact (hfull day).2 hdate
        obtain ⟨smaller, hdate, hlt⟩ :=
          hsmaller ⟨hnew, h.card_eq_iff.2 fun day ↦ (hfull day).1⟩
        obtain ⟨other, -, rfl⟩ := (h.dates smaller).1 hdate
        rw [hslot] at hmin
        exact absurd hlt (Int32.not_lt.2 (hmin other))
    · refine ⟨day, ?_, ?_⟩
      · rw [hother day hslot]
        exact hvalid
      · rw [hother day hslot]
  · rintro ⟨day, hvalid, rfl⟩
    by_cases hslot : chooseSlot s.cache candidate.dateKey = day
    · subst hslot
      rw [hchosen]
      exact Or.inl hspec.holds.dateKey
    · rw [hother day hslot] at hvalid ⊢
      refine Or.inr ⟨(h.dates _).2 ⟨day, hvalid, rfl⟩, fun ⟨hnew, hcard⟩ ↦ ?_⟩
      -- When all slots are used the one with the smallest date was overwritten, and this one is
      -- another.
      have hused := h.card_eq_iff.1 hcard
      rcases chooseSlot_cases s.cache candidate.dateKey with ⟨-, hend⟩ | ⟨-, hmin⟩
      · exact absurd ((h.dates _).2 ⟨_, hused _, hend (hused _)⟩) hnew
      · refine ⟨_, (h.dates _).2 ⟨_, hused (chooseSlot s.cache candidate.dateKey), rfl⟩, ?_⟩
        refine Int32.lt_of_le_of_ne (hmin day) fun heq ↦ hslot ?_
        exact h.valid.day_injective day _ hvalid (hused _) heq

/-! ### One operation -/

/-- A well-formed candidate of a date passes the checks. -/
theorem vibeCacheReplaceDay_ok (h : cache.Valid) {candidate : DayCandidate} {fetchedAt : Int64}
    (hcandidate : candidate.WellFormed) (hdate : vibeDateIsValid candidate.dateKey = true)
    (hfetched : 0 < fetchedAt) : (vibeCacheReplaceDay cache candidate fetchedAt).1 = none := by
  obtain ⟨hschema, -, hmetric, -⟩ := of_decide_eq_true h.header
  have hlength := length_le_named_add_one hcandidate.nodup
  have hnamed := hcandidate.named
  have hslots : candidate.sources.length ≤ sourceSlots := by
    have hsome : sourceSlots - 1 + 1 = sourceSlots := rfl
    split at hlength <;> omega
  have hcheck : checkSources candidate.sources 0 = .ok candidate.totalTokens :=
    checkSources_eq_ok.2 ⟨hcandidate.ids, by rw [UInt64.toNat_zero, Nat.zero_add, hcandidate.sum]⟩
  have hguard : ¬ (¬ vibeDateIsValid candidate.dateKey = true ∨ fetchedAt ≤ 0 ∨
      candidate.sources.length > sourceSlots ∨ cache.schemaVersion ≠ cacheSchemaVersion ∨
      cache.metricId ≠ metricIdApiTotalV1) := by
    rintro (hno | hno | hno | hno | hno)
    · exact hno hdate
    · exact Int64.not_lt.2 hno hfetched
    · omega
    · exact hno hschema
    · exact hno hmetric
  obtain ⟨ids, sourceTokens, sourcesCollapsed, hplace, -⟩ :=
    placeSources_spec h.ids hcandidate.ids (nextSlot_fits fetchedAt hcandidate.sum)
  unfold vibeCacheReplaceDay
  rw [if_neg hguard, hcheck]
  dsimp only
  rw [if_neg (not_not.2 rfl), hplace]

/-- A slot that holds a candidate still does when the dictionary has grown. -/
theorem Holds.extend {ids ids' : Vector CString sourceSlots} {slot : DailySlot}
    {candidate : DayCandidate} (h : Holds ids slot candidate) (hids : ValidIds ids)
    (hids' : ValidIds ids') (hext : Extends ids ids') : Holds ids' slot candidate :=
  { h with
    tokens := fun i ↦ by
      rw [h.tokens, tokensAt_extend hids hids' hext h.named h.settled]
    settled := fun s hs ↦ (h.settled s hs).extend hext (h.named s hs).1 }

/-- Writing a valid cache and reading it back marks it as persisted. -/
theorem run_reload (h : cache.Valid) (allocated : Bool) :
    (CacheOp.reload allocated).run cache =
      if allocated then (none, { cache with persisted := true }) else (some .noMemory, cache) := by
  have hcache := validateCache_iff.2 h
  unfold CacheOp.run
  rw [vibeCacheEncode_eq hcache]
  unfold vibeCacheDecode
  cases allocated with
  | true =>
    dsimp only
    rw [decodeCacheInto_blobOf hcache]
    rfl
  | false => rfl

section Replaced

variable {candidate : DayCandidate} {fetchedAt : Int64} {ids : Vector CString sourceSlots}
  {next : DailySlot}

/-- No date is behind an unused slot, so the cache stays valid. -/
theorem IsMap.valid_storeDay (h : IsMap s)
    (hspec : Replaces s.cache candidate fetchedAt ids next) :
    (storeDay { s.cache with sourceIds := ids } next).Valid :=
  (storeDay_valid_iff h.valid hspec).2 (h.not_hidden candidate.dateKey)

/-- The used slots still come first. -/
theorem IsMap.front_storeDay (h : IsMap s)
    (hspec : Replaces s.cache candidate fetchedAt ids next) (day later : Fin cacheDays)
    (hlt : day < later)
    (hlater : (storeDay { s.cache with sourceIds := ids } next).days[later].valid = true) :
    (storeDay { s.cache with sourceIds := ids } next).days[day].valid = true := by
  by_cases hday : chooseSlot s.cache candidate.dateKey = day
  · rw [← hday, hspec.chosen]
    exact hspec.holds.valid
  · rw [hspec.other day hday]
    by_cases hslot : chooseSlot s.cache candidate.dateKey = later
    · -- `choose_slot` has passed the slots before the one it stops at
      rcases chooseSlot_cases s.cache candidate.dateKey with ⟨hprior, -⟩ | ⟨hfull, -⟩
      · exact (hprior day (hslot ▸ hlt)).1
      · exact (hfull day).1
    · rw [hspec.other later hslot] at hlater
      exact h.front day later hlt hlater

/-- Every used slot holds the candidate that was stored last for its date. -/
theorem IsMap.day_storeDay (h : IsMap s)
    (hspec : Replaces s.cache candidate fetchedAt ids next) (day : Fin cacheDays)
    (hday : (storeDay { s.cache with sourceIds := ids } next).days[day].valid = true) :
    ∃ latest, Function.update s.latest candidate.dateKey (some candidate)
        (storeDay { s.cache with sourceIds := ids } next).days[day].dateKey = some latest ∧
      Holds ids (storeDay { s.cache with sourceIds := ids } next).days[day] latest := by
  by_cases hslot : chooseSlot s.cache candidate.dateKey = day
  · refine ⟨candidate, ?_, ?_⟩
    · rw [← hslot, hspec.chosen, hspec.holds.dateKey]
      exact Function.update_self ..
    · rw [← hslot, hspec.chosen]
      exact hspec.holds
  · rw [hspec.other day hslot] at hday ⊢
    obtain ⟨old, hlatest, hold⟩ := h.day day hday
    refine ⟨old, ?_, hold.extend h.valid.ids hspec.validIds hspec.kept⟩
    have hdate : s.cache.days[day].dateKey ≠ candidate.dateKey := fun hdate ↦
      hslot (dateKey_of_not_hidden h.valid (h.not_hidden candidate.dateKey) hday hdate)
    rw [← hlatest]
    exact Function.update_of_ne hdate ..

/-- A day of another date that is found was there before. -/
theorem IsMap.find_of_storeDay (h : IsMap s)
    (hspec : Replaces s.cache candidate fetchedAt ids next) {key : Int32} {slot : DailySlot}
    (hkey : key ≠ candidate.dateKey)
    (hfind : vibeCacheFindDay (storeDay { s.cache with sourceIds := ids } next) key =
      some slot) : vibeCacheFindDay s.cache key = some slot := by
  obtain ⟨day, hday, hvalid, hdate⟩ :=
    (vibeCacheFindDay_eq_some (h.valid_storeDay hspec)).1 hfind
  by_cases hslot : chooseSlot s.cache candidate.dateKey = day
  · rw [← hslot, hspec.chosen] at hday
    rw [← hday, hspec.holds.dateKey] at hdate
    exact absurd hdate.symm hkey
  · rw [hspec.other day hslot] at hday
    exact (vibeCacheFindDay_eq_some h.valid).2 ⟨day, hday, hvalid, hdate⟩

/-- A day that is not found any more was the smallest of a full cache. -/
theorem IsMap.evicted_of_storeDay (h : IsMap s)
    (hspec : Replaces s.cache candidate fetchedAt ids next) {key : Int32} {slot : DailySlot}
    (hfind : vibeCacheFindDay s.cache key = some slot)
    (hnone : vibeCacheFindDay (storeDay { s.cache with sourceIds := ids } next) key = none) :
    FullOther s.cache candidate.dateKey ∧
      ∀ day : Fin cacheDays, key ≤ s.cache.days[day].dateKey := by
  obtain ⟨day, rfl, hvalid, rfl⟩ := (vibeCacheFindDay_eq_some h.valid).1 hfind
  have hgone := vibeCacheFindDay_eq_none.1 hnone day
  -- the slot was overwritten, and its date is not the new one
  have hslot : chooseSlot s.cache candidate.dateKey = day := by
    by_contra hne
    rw [hspec.other day hne] at hgone
    exact hgone ⟨hvalid, rfl⟩
  have hdate : s.cache.days[day].dateKey ≠ candidate.dateKey := by
    intro hdate
    refine hgone ?_
    rw [← hslot, hspec.chosen]
    exact ⟨hspec.holds.valid, hspec.holds.dateKey.trans (by rw [hslot, hdate])⟩
  rcases chooseSlot_cases s.cache candidate.dateKey with ⟨-, hend⟩ | ⟨hfull, hmin⟩
  · simp only [hslot] at hend
    exact absurd (hend hvalid) hdate
  · simp only [hslot] at hmin
    exact ⟨hfull, hmin⟩

/-- **Storing a candidate** in a cache that is a map. -/
theorem isUpdate_replace (h : IsMap s) (hspec : Replaces s.cache candidate fetchedAt ids next)
    (hrun : vibeCacheReplaceDay s.cache candidate fetchedAt =
      (none, storeDay { s.cache with sourceIds := ids } next)) :
    IsMap (s.step (.replace candidate fetchedAt)) ∧
      IsUpdate s.cache (.replace candidate fetchedAt) := by
  have hrun' : (CacheOp.replace candidate fetchedAt).run s.cache =
      (none, storeDay { s.cache with sourceIds := ids } next) := hrun
  have hstep : s.step (.replace candidate fetchedAt) =
      ⟨storeDay { s.cache with sourceIds := ids } next,
        Function.update s.latest candidate.dateKey (some candidate),
        datesWith s.dates candidate.dateKey⟩ := by
    unfold History.step
    rw [hrun']
  constructor
  · rw [hstep]
    exact ⟨h.valid_storeDay hspec, h.front_storeDay hspec, h.day_storeDay hspec,
      h.mem_datesWith_iff hspec⟩
  · refine ⟨fun herror ↦ absurd (by rw [hrun']) herror, fun _ _ _ _ _ _ ↦ by rw [hrun'], ?_, ?_,
      ?_, ?_⟩
    · rintro _ _ ⟨rfl, rfl⟩ -
      rw [hrun']
      exact ⟨next, (vibeCacheFindDay_eq_some (h.valid_storeDay hspec)).2
        ⟨_, hspec.chosen, hspec.holds.valid, hspec.holds.dateKey⟩, hspec.fetchedAt_eq, hspec.holds⟩
    · rw [hrun']
      exact hspec.kept
    · intro key slot hkey hfind
      rw [hrun'] at hfind
      exact h.find_of_storeDay hspec (hkey candidate fetchedAt rfl) hfind
    · intro key slot hfind hnone
      rw [hrun'] at hnone
      exact ⟨candidate, fetchedAt, rfl, h.evicted_of_storeDay hspec hfind hnone⟩

end Replaced

/-- **One operation.** -/
theorem isUpdate_step (h : IsMap s) (op : CacheOp) : IsMap (s.step op) ∧ IsUpdate s.cache op := by
  cases op with
  | replace candidate fetchedAt =>
    rcases vibeCacheReplaceDay_cases h.valid.ids candidate fetchedAt with
      ⟨error, herror⟩ | ⟨ids, next, hrun, hspec⟩
    · have hrun' : (CacheOp.replace candidate fetchedAt).run s.cache = (some error, s.cache) :=
        herror
      -- A candidate that is refused changes nothing.
      have hstep : s.step (.replace candidate fetchedAt) = s := by
        unfold History.step
        rw [hrun']
      rw [hstep]
      refine ⟨h, fun _ ↦ by rw [hrun'], ?_, ?_, ?_, ?_, ?_⟩
      · rintro _ _ ⟨rfl, rfl⟩ hcandidate hdate hfetched
        exact vibeCacheReplaceDay_ok h.valid hcandidate hdate hfetched
      · intro _ _ _ hok
        rw [hrun'] at hok
        cases hok
      · rw [hrun']
        exact Extends.refl _
      · intro key slot _ hfind
        rwa [hrun'] at hfind
      · intro key slot hfind hnone
        rw [hrun', hfind] at hnone
        cases hnone
    · exact isUpdate_replace h hspec hrun
  | reload allocated =>
    have hrun := run_reload h.valid allocated
    -- A reload reads back what is there, and at most says that it is persisted.
    have hcache : ((CacheOp.reload allocated).run s.cache).2 =
        { s.cache with persisted := allocated || s.cache.persisted } := by
      rw [hrun]
      cases allocated <;> rfl
    have hfind : ∀ key, vibeCacheFindDay ((CacheOp.reload allocated).run s.cache).2 key =
        vibeCacheFindDay s.cache key := by
      intro key
      rw [hcache]
      rfl
    have hstep : s.step (.reload allocated) =
        ⟨{ s.cache with persisted := allocated || s.cache.persisted }, s.latest, s.dates⟩ := by
      unfold History.step
      rw [hcache]
    refine ⟨?_, ?_, nofun, nofun, ?_, ?_, ?_⟩
    · rw [hstep]
      have hold := validateCache_iff.2 h.valid
      have hvalid : validateCache { s.cache with persisted := allocated || s.cache.persisted } =
          true := hold
      exact ⟨validateCache_iff.1 hvalid, h.front, h.day, h.dates⟩
    · intro herror
      rw [hrun] at herror ⊢
      cases allocated with
      | true => exact absurd rfl herror
      | false => rfl
    · rw [hcache]
      exact Extends.refl _
    · intro key slot _ hday
      rwa [hfind] at hday
    · intro key slot hday hnone
      rw [hfind, hday] at hnone
      cases hnone

/-- **The whole run**: the cache is a map at every moment, and every operation updates it as one. -/
theorem cache_isMap {generation configRevision : UInt32} {timezone : Timezone}
    (hrevision : configRevision ≠ 0) (hzone : timezone.Supported) (ops : List CacheOp) :
    IsMap (History.run generation configRevision timezone ops) ∧
      validateCache (History.run generation configRevision timezone ops).cache = true ∧
      ∀ op, IsUpdate (History.run generation configRevision timezone ops).cache op := by
  have hrun : ∀ (ops : List CacheOp) (s : History), IsMap s → IsMap (ops.foldl History.step s) := by
    intro ops
    induction ops with
    | nil => exact fun s h ↦ h
    | cons op ops ih => exact fun s h ↦ ih _ (isUpdate_step h op).1
  have hmap := hrun ops _ (isMap_init generation hrevision hzone)
  exact ⟨hmap, validateCache_iff.2 hmap.valid, fun op ↦ (isUpdate_step hmap op).2⟩

/-- Nine dates, and the second one once more. -/
def nineDates : List CacheOp :=
  [5, 2, 3, 4, 6, 7, 8, 9, 10, 3].map fun day ↦
    .replace (julyCandidate day (UInt64.ofNat day.toInt.toNat) 100) 1784073600

/-- The ninth date takes the place of the smallest. -/
theorem cache_isMap_nineDates :
    (IsMap (History.run 1 1 .utc (nineDates ++ [.reload true])) ∧
      validateCache (History.run 1 1 .utc (nineDates ++ [.reload true])).cache = true ∧
      ∀ op, IsUpdate (History.run 1 1 .utc (nineDates ++ [.reload true])).cache op) ∧
    (History.run 1 1 .utc nineDates).dates =
      {20260703, 20260704, 20260705, 20260706, 20260707, 20260708, 20260709, 20260710} ∧
    vibeCacheFindDay (History.run 1 1 .utc nineDates).cache 20260702 = none ∧
    ((vibeCacheFindDay (History.run 1 1 .utc nineDates).cache 20260703).map
      (·.totalTokens)) = some 103 :=
  ⟨cache_isMap (by decide) (Or.inr rfl) _, by decide +kernel, by decide +kernel, by decide +kernel⟩

end VibeUsage
