import VibeUsage.Cache.Valid
import VibeUsage.Calendar

/-!
# The days of a window

`vibe_cache_build_snapshot` looks up the days of a week one by one. What its first loop gathers is
stated through sums over `ℕ` of the slots whose dates lie among the last days of the calendar.

One turn of the loop either skips an age that is not stored (`Gathers.skip`) or adds a slot
(`Gathers.slot`); its overflow guards are what lets the sums be over `ℕ`. `gathers_of_gatherDays` is
the whole loop, from any age it may have come to.
-/

namespace VibeUsage

/-! ### Windows -/

/-- How many days before today the date of a slot is. -/
def DailySlot.age (today : Int32) (slot : DailySlot) : ℤ := serial today - serial slot.dateKey

/-- The slots with a date among the last `n` days. -/
def windowDays (cache : VibeCache) (today : Int32) (n : ℕ) : Finset (Fin cacheDays) :=
  Finset.univ.filter fun day ↦ cache.days[day].valid = true ∧ 0 ≤ cache.days[day].age today ∧
    cache.days[day].age today < n

/-- A sum over the slots of a window. -/
def windowSum (cache : VibeCache) (today : Int32) (n : ℕ) (f : DailySlot → ℕ) : ℕ :=
  ∑ day ∈ windowDays cache today n, f cache.days[day]

/-- The tokens of a source in a window. -/
def sourceSum (cache : VibeCache) (today : Int32) (n : ℕ) (source : Fin sourceSlots) : ℕ :=
  windowSum cache today n fun slot ↦ slot.sourceTokens[source].toNat

/-- The tokens of a window. -/
def totalSum (cache : VibeCache) (today : Int32) (n : ℕ) : ℕ :=
  windowSum cache today n fun slot ↦ slot.totalTokens.toNat

variable {cache : VibeCache} {today : Int32}

/-- A day of the window. -/
theorem mem_windowDays {n : ℕ} {day : Fin cacheDays} :
    day ∈ windowDays cache today n ↔ cache.days[day].valid = true ∧
      0 ≤ cache.days[day].age today ∧ cache.days[day].age today < n := by
  simp [windowDays]

/-- Nothing is lost between the sources and the total. -/
theorem sum_sourceSum (hcache : cache.Valid) (n : ℕ) :
    ∑ source, sourceSum cache today n source = totalSum cache today n := by
  unfold sourceSum totalSum windowSum
  rw [Finset.sum_comm]
  exact Finset.sum_congr rfl fun day _ ↦ hcache.tokens_sum day

/-- A source without an id has no tokens. -/
theorem sourceSum_of_unnamed (hcache : cache.Valid) {n : ℕ} {source : Fin sourceSlots}
    (h : cache.sourceIds[source].bytes = []) : sourceSum cache today n source = 0 := by
  have hday : ∀ day : Fin cacheDays, cache.days[day].sourceTokens[source].toNat = 0 := by
    intro day
    rw [hcache.tokens_named day source h, UInt64.toNat_zero]
  unfold sourceSum windowSum
  exact Finset.sum_eq_zero fun day _ ↦ hday day

/-! ### One day more -/

/-- The key the loop looks up is that of the day `age` days before today. -/
theorem dayBefore_ok {age : ℕ} {key : Int32} (hage : age < 2 ^ 31)
    (h : dayBefore today age = .ok key) :
    vibeDateIsValid key = true ∧ serial key = serial today - age := by
  obtain ⟨-, hkey, hserial⟩ := vibeDateAddDays_ok h
  have hnat : (Int32.ofNat age).toInt = age := Int32.toInt_ofNat_of_lt hage
  have hneg : (-Int32.ofNat age).toInt = -age := by
    rw [Int32.toInt_neg, hnat, Int.bmod_eq_of_le] <;> omega
  exact ⟨hkey, by rw [hserial, hneg]; omega⟩

/-- A stored date is the one looked up when it is as far from today. -/
theorem dateKey_eq_iff (hcache : cache.Valid) {age : ℕ} {key : Int32} {day : Fin cacheDays}
    (hday : cache.days[day].valid = true) (hkey : vibeDateIsValid key = true)
    (hserial : serial key = serial today - age) :
    cache.days[day].dateKey = key ↔ cache.days[day].age today = age := by
  unfold DailySlot.age
  constructor
  · intro h
    rw [h, hserial]
    omega
  · intro h
    exact serial_injective (hcache.day_date day hday) hkey (by omega)

/-- A window of no days. -/
theorem windowDays_zero : windowDays cache today 0 = ∅ := by
  rw [Finset.eq_empty_iff_forall_notMem]
  intro day h
  obtain ⟨-, hpos, hlt⟩ := mem_windowDays.1 h
  omega

/-- One day more. -/
theorem mem_windowDays_succ {n : ℕ} {day : Fin cacheDays} :
    day ∈ windowDays cache today (n + 1) ↔ day ∈ windowDays cache today n ∨
      cache.days[day].valid = true ∧ cache.days[day].age today = n := by
  rw [mem_windowDays, mem_windowDays]
  push_cast
  constructor
  · rintro ⟨hday, hpos, hlt⟩
    rcases Int.lt_or_eq_of_le (Int.le_of_lt_add_one hlt) with hlt | heq
    · exact Or.inl ⟨hday, hpos, hlt⟩
    · exact Or.inr ⟨hday, heq⟩
  · rintro (⟨hday, hpos, hlt⟩ | ⟨hday, heq⟩)
    · exact ⟨hday, hpos, by omega⟩
    · exact ⟨hday, by omega, by omega⟩

/-- A day that is not stored adds nothing. -/
theorem windowDays_succ_of_none (hcache : cache.Valid) {n : ℕ} {key : Int32} (hn : n < 2 ^ 31)
    (hkey : dayBefore today n = .ok key) (hfind : vibeCacheFindDay cache key = none) :
    windowDays cache today (n + 1) = windowDays cache today n := by
  obtain ⟨hvalid, hserial⟩ := dayBefore_ok hn hkey
  ext day
  rw [mem_windowDays_succ, or_iff_left]
  rintro ⟨hday, hage⟩
  exact vibeCacheFindDay_eq_none.1 hfind day
    ⟨hday, (dateKey_eq_iff hcache hday hvalid hserial).2 hage⟩

/-- A stored day is one more slot, the only one of its date. -/
theorem windowDays_succ_of_some (hcache : cache.Valid) {n : ℕ} {key : Int32} {slot : DailySlot}
    (hn : n < 2 ^ 31) (hkey : dayBefore today n = .ok key)
    (hfind : vibeCacheFindDay cache key = some slot) :
    ∃ day, cache.days[day] = slot ∧ slot.valid = true ∧ slot.age today = n ∧
      day ∉ windowDays cache today n ∧
      windowDays cache today (n + 1) = insert day (windowDays cache today n) := by
  obtain ⟨hvalid, hserial⟩ := dayBefore_ok hn hkey
  obtain ⟨day, rfl, hday, hdate⟩ := vibeCacheFindDay_of_some hfind
  have hage := (dateKey_eq_iff hcache hday hvalid hserial).1 hdate
  refine ⟨day, rfl, hday, hage, ?_, ?_⟩
  · intro h
    have := (mem_windowDays.1 h).2.2
    omega
  · ext other
    rw [mem_windowDays_succ, Finset.mem_insert, or_comm]
    refine or_congr_left ⟨?_, ?_⟩
    · rintro ⟨hother, hage'⟩
      refine hcache.day_injective day other hday hother ?_
      rw [hdate, (dateKey_eq_iff hcache hother hvalid hserial).2 hage']
    · rintro rfl
      exact ⟨hday, hage⟩

/-! ### The loop over the ages -/

/-- What the loop has gathered after the first `n` ages. -/
structure Gathers (cache : VibeCache) (today : Int32) (n : ℕ) (g : Gathered) : Prop where
  seven : g.sevenDayTokens.toNat = totalSum cache today n
  sevenBySource : ∀ source : Fin sourceSlots,
    g.sevenBySource[source].toNat = sourceSum cache today n source
  todayTokens : g.todayTokens.toNat = totalSum cache today (min n 1)
  todayBySource : ∀ source : Fin sourceSlots,
    g.todayBySource[source].toNat = sourceSum cache today (min n 1) source
  mask : ∀ k, g.validDaysMask.toNat.testBit k = true ↔
    ∃ day ∈ windowDays cache today n, cache.days[day].age today = k
  todayComplete : g.todayComplete = g.validDaysMask.toNat.testBit 0

/-- Nothing has been gathered of no days. -/
theorem gathers_zero : Gathers cache today 0 .zero where
  seven := by simp [Gathered.zero, totalSum, windowSum, windowDays_zero]
  sevenBySource := by simp [Gathered.zero, sourceSum, windowSum, windowDays_zero]
  todayTokens := by simp [Gathered.zero, totalSum, windowSum, windowDays_zero]
  todayBySource := by simp [Gathered.zero, sourceSum, windowSum, windowDays_zero]
  mask := by simp [Gathered.zero, windowDays_zero]
  todayComplete := by simp [Gathered.zero]

/-- Setting a bit of the mask. -/
theorem testBit_or_shiftLeft (mask : UInt8) {n : ℕ} (hn : n < 8) (k : ℕ) :
    (mask ||| 1 <<< UInt8.ofNat n).toNat.testBit k = (mask.toNat.testBit k || decide (n = k)) := by
  have hbit : ((1 : UInt8) <<< UInt8.ofNat n).toNat = 2 ^ n := by
    interval_cases n <;> rfl
  rw [UInt8.toNat_or, Nat.testBit_or, hbit, Nat.testBit_two_pow]

/-- **One day more** is added to the sums. -/
theorem windowSum_insert {n : ℕ} {day : Fin cacheDays} (f : DailySlot → ℕ)
    (hnot : day ∉ windowDays cache today n)
    (hsucc : windowDays cache today (n + 1) = insert day (windowDays cache today n)) :
    windowSum cache today (n + 1) f = windowSum cache today n f + f cache.days[day] := by
  rw [windowSum, hsucc, Finset.sum_insert hnot, Nat.add_comm]
  rfl

/-- **One age**, when its day is not stored. -/
theorem Gathers.skip (hcache : cache.Valid) {n : ℕ} {key : Int32} {g : Gathered}
    (hg : Gathers cache today n g) (hn : n < 7) (hkey : dayBefore today n = .ok key)
    (hfind : vibeCacheFindDay cache key = none) : Gathers cache today (n + 1) g := by
  have hdays := windowDays_succ_of_none hcache (by omega) hkey hfind
  have hone : windowDays cache today (min (n + 1) 1) = windowDays cache today (min n 1) := by
    rcases Nat.eq_zero_or_pos n with rfl | hpos
    · exact hdays
    · rw [Nat.min_eq_right (by omega), Nat.min_eq_right hpos]
  have hsum : ∀ f, windowSum cache today (n + 1) f = windowSum cache today n f := by
    intro f
    rw [windowSum, hdays, windowSum]
  have hsum' : ∀ f, windowSum cache today (min (n + 1) 1) f =
    windowSum cache today (min n 1) f := by
    intro f
    rw [windowSum, hone, windowSum]
  exact ⟨hg.seven.trans (hsum _).symm, fun source ↦ (hg.sevenBySource source).trans (hsum _).symm,
    hg.todayTokens.trans (hsum' _).symm, fun source ↦
      (hg.todayBySource source).trans (hsum' _).symm,
    fun k ↦ by rw [hg.mask, hdays], hg.todayComplete⟩

/-- **One age**, when its day is stored. -/
theorem Gathers.slot (hcache : cache.Valid) {n : ℕ} {key : Int32} {slot : DailySlot}
    {g g' : Gathered} (hg : Gathers cache today n g) (hn : n < 7)
    (hkey : dayBefore today n = .ok key) (hfind : vibeCacheFindDay cache key = some slot)
    (hslot : gatherSlot g n slot = .ok g') : Gathers cache today (n + 1) g' := by
  obtain ⟨day, rfl, hday, hage, hnot, hdays⟩ :=
    windowDays_succ_of_some hcache (by omega) hkey hfind
  have hsum := fun f ↦ windowSum_insert f hnot hdays
  unfold gatherSlot at hslot
  split at hslot
  · cases hslot
  split at hslot
  · cases hslot
  rename_i htotal hsource
  have htotal := mt (uint64Max_sub_lt_iff _ _).2 htotal
  -- The guards of `gather_days` leave room for every sum.
  have hsource : ∀ source : Fin sourceSlots, g.sevenBySource[source].toNat +
      cache.days[day].sourceTokens[source].toNat < 2 ^ 64 := by
    intro source
    have := mt (uint64Max_sub_lt_iff _ _).2 (not_exists.1 hsource source)
    omega
  cases Except.ok.inj hslot
  have hmin : n ≠ 0 → min (n + 1) 1 = min n 1 := by omega
  -- The fields of `Gathers`. Today is the window of one day, which only the first age is in.
  refine ⟨?_, ?_, ?_, ?_, ?_, ?_⟩
  · rw [UInt64.toNat_add_of_lt (by omega), hg.seven]
    exact (hsum _).symm
  · intro source
    have hget : (g.sevenBySource.zipWith (· + ·) cache.days[day].sourceTokens)[source] =
        g.sevenBySource[source] + cache.days[day].sourceTokens[source] := by simp
    rw [hget, UInt64.toNat_add_of_lt (hsource source), hg.sevenBySource]
    exact (hsum _).symm
  · show (if n = 0 then _ else _ : UInt64).toNat = _
    split
    · rename_i h
      subst h
      show _ = windowSum cache today (0 + 1) _
      rw [hsum, windowSum, windowDays_zero, Finset.sum_empty, Nat.zero_add]
    · rename_i h
      rw [hmin h, hg.todayTokens]
  · intro source
    show (if n = 0 then _ else _ : Vector UInt64 sourceSlots)[source].toNat = _
    split
    · rename_i h
      subst h
      show _ = windowSum cache today (0 + 1) _
      rw [hsum, windowSum, windowDays_zero, Finset.sum_empty, Nat.zero_add]
    · rename_i h
      rw [hmin h, hg.todayBySource]
  · intro k
    rw [testBit_or_shiftLeft _ (by omega), Bool.or_eq_true, hg.mask, decide_eq_true_eq, hdays,
      Finset.exists_mem_insert, or_comm, hage, Int.natCast_inj]
  · show (if n = 0 then true else g.todayComplete) = _
    rw [testBit_or_shiftLeft _ (by omega), hg.todayComplete]
    split
    · rename_i h
      simp [h]
    · rename_i h
      simp [h]

/-- **One age.** -/
theorem Gathers.age (hcache : cache.Valid) {n : ℕ} {g g' : Gathered} (hg : Gathers cache today n g)
    (hn : n < 7) (h : gatherAge cache today g n = .ok g') : Gathers cache today (n + 1) g' := by
  unfold gatherAge at h
  split at h
  · cases h
  rename_i key hkey
  split at h
  · rename_i hfind
    rw [← Except.ok.inj h]
    exact hg.skip hcache hn hkey hfind
  · rename_i slot hfind
    exact hg.slot hcache hn hkey hfind h

/-- **The whole loop.** -/
theorem gathers_of_gatherDays (hcache : cache.Valid) {m n : ℕ} {g g' : Gathered} (hle : n + m ≤ 7)
    (hg : Gathers cache today n g) (h : gatherDays cache today (List.range' n m) g = .ok g') :
    Gathers cache today (n + m) g' := by
  unfold gatherDays at h
  induction m generalizing n g with
  | zero =>
    rw [List.range'_zero, List.foldlM_nil] at h
    rwa [← Except.ok.inj h]
  | succ m ih =>
    rw [List.range'_succ, List.foldlM_cons] at h
    cases hage : gatherAge cache today g n with
    | error error => rw [hage] at h; cases h
    | ok g₁ =>
      rw [hage] at h
      have hnext : n + (m + 1) = n + 1 + m := by omega
      rw [hnext]
      exact ih (by omega) (hg.age hcache (by omega) hage) h

end VibeUsage
