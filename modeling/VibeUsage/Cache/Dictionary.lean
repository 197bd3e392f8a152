import VibeUsage.Cache.Valid

/-!
# The dictionary

`vibe_cache_replace_day` spreads the sources of a candidate over the dictionary of the cache, which
only grows: an id that has an entry keeps it, and an id that found none because the dictionary was
full never gets one. So what a source is counted under can be read off the dictionary at any later
time (`slotIndex`), and the tokens of a slot stay described by the candidate they came from.

* `dictionaryIndex_spec` is one source: the index it gets, and that the index is its for good.
* `placeSources_spec` is the loop over the sources of a candidate, which cannot overflow when their
  sum does not.
* `slotIndex_extend` and `tokensAt_extend` are why a later candidate does not disturb an earlier
  one.
-/

namespace VibeUsage

/-- The ids of a valid cache. -/
structure ValidIds (ids : Vector CString sourceSlots) : Prop where
  length : ∀ source : Fin sourceSlots, ids[source].bytes.length < sourceIdBytes
  other : ids[otherIndex] = otherSourceId
  injective : ∀ source prior : Fin sourceSlots, ids[source].bytes ≠ [] →
    ids[prior] = ids[source] → prior = source

/-- A valid cache has a valid dictionary. -/
theorem VibeCache.Valid.ids {cache : VibeCache} (h : cache.Valid) : ValidIds cache.sourceIds :=
  ⟨h.id_length, h.id_other, h.id_injective⟩

/-- Entries that are set are kept. -/
def Extends (ids ids' : Vector CString sourceSlots) : Prop :=
  ∀ i : Fin sourceSlots, ids[i].bytes ≠ [] → ids'[i] = ids[i]

/-- A dictionary extends itself. -/
theorem Extends.refl (ids : Vector CString sourceSlots) : Extends ids ids := fun _ _ ↦ rfl

/-- An extension is extended. -/
theorem Extends.trans {ids ids' ids'' : Vector CString sourceSlots} (h : Extends ids ids')
    (h' : Extends ids' ids'') : Extends ids ids'' := by
  intro i hi
  rw [h' i (by rwa [h i hi]), h i hi]

/-- The index a source is counted under: that of its entry, if it has one. -/
def slotIndex (ids : Vector CString sourceSlots) (source : CString) : Fin sourceSlots :=
  (namedIndices.find? fun i ↦ ids[i] = source).getD otherIndex

/-- A source that has an entry, or will never have one. -/
def Settled (ids : Vector CString sourceSlots) (source : CString) : Prop :=
  source = otherSourceId ∨ (∃ i : Fin sourceSlots, ids[i] = source) ∨
    ∀ i : Fin sourceSlots, ids[i].bytes ≠ []

variable {ids ids' : Vector CString sourceSlots} {source : CString}

/-- The entry of a source is its index. -/
theorem slotIndex_eq (h : ValidIds ids) {i : Fin sourceSlots} (hne : source.bytes ≠ [])
    (hi : ids[i] = source) : slotIndex ids source = i := by
  unfold slotIndex
  by_cases hother : i = otherIndex
  · have hnone : namedIndices.find? (fun i ↦ decide (ids[i] = source)) = none := by
      rw [List.find?_eq_none]
      intro j hj hsame
      have hji := h.injective i j (by rwa [hi]) ((of_decide_eq_true hsame).trans hi.symm)
      exact mem_namedIndices.1 hj (hji.trans hother)
    rw [hnone, hother]
    rfl
  · cases hfind : namedIndices.find? (fun i ↦ decide (ids[i] = source)) with
    | none =>
      exact absurd (decide_eq_true hi)
        (List.find?_eq_none.1 hfind i (mem_namedIndices.2 hother))
    | some j =>
      have hj : ids[j] = source := by simpa using List.find?_some hfind
      exact h.injective i j (by rwa [hi]) (hj.trans hi.symm)

/-- A source without an entry is counted under `__other__`. -/
theorem slotIndex_of_absent (h : ∀ i : Fin sourceSlots, i ≠ otherIndex → ids[i] ≠ source) :
    slotIndex ids source = otherIndex := by
  unfold slotIndex
  have hnone : namedIndices.find? (fun i ↦ decide (ids[i] = source)) = none := by
    rw [List.find?_eq_none]
    intro j hj hsame
    exact h j (mem_namedIndices.1 hj) (of_decide_eq_true hsame)
  rw [hnone]
  rfl

/-- A source is never counted under an index without an id. -/
theorem slotIndex_named (h : ValidIds ids) (hne : source.bytes ≠ []) :
    ids[slotIndex ids source].bytes ≠ [] := by
  by_cases habsent : ∃ i : Fin sourceSlots, ids[i] = source
  · obtain ⟨i, hi⟩ := habsent
    have hindex := slotIndex_eq h hne hi
    simp only [hindex, hi]
    exact hne
  · have hindex := slotIndex_of_absent fun i _ ↦ not_exists.1 habsent i
    simp only [hindex, h.other]
    decide

/-- An id that has its place keeps it. -/
theorem Settled.extend (h : Settled ids source) (hext : Extends ids ids')
    (hne : source.bytes ≠ []) : Settled ids' source := by
  rcases h with h | ⟨i, hi⟩ | h
  · exact Or.inl h
  · exact Or.inr (Or.inl ⟨i, by rw [hext i (by rwa [hi]), hi]⟩)
  · exact Or.inr (Or.inr fun i ↦ by rw [hext i (h i)]; exact h i)

/-- **A settled source stays where it is.** -/
theorem slotIndex_extend (h : ValidIds ids) (h' : ValidIds ids') (hext : Extends ids ids')
    (hsettled : Settled ids source) (hne : source.bytes ≠ []) :
    slotIndex ids' source = slotIndex ids source := by
  have hentry : ∀ i : Fin sourceSlots, ids[i] = source →
      slotIndex ids' source = slotIndex ids source := by
    intro i hi
    rw [slotIndex_eq h hne hi, slotIndex_eq h' hne (by rw [hext i (by rwa [hi]), hi])]
  rcases hsettled with rfl | ⟨i, hi⟩ | hfull
  · exact hentry otherIndex h.other
  · exact hentry i hi
  · by_cases habsent : ∃ i : Fin sourceSlots, ids[i] = source
    · obtain ⟨i, hi⟩ := habsent
      exact hentry i hi
    · have habsent := not_exists.1 habsent
      rw [slotIndex_of_absent fun i _ ↦ habsent i, slotIndex_of_absent fun i _ ↦ ?_]
      rw [hext i (hfull i)]
      exact habsent i

/-! ### One source -/

/-- Setting an empty entry to an id that has none. -/
theorem ValidIds.set (h : ValidIds ids) {i : Fin sourceSlots} (hother : i ≠ otherIndex)
    (hlen : source.bytes.length < sourceIdBytes) (habsent : ∀ j : Fin sourceSlots, ids[j] ≠ source)
    (hempty : ids[i].bytes = []) :
    ValidIds (ids.set i source i.isLt) ∧ Extends ids (ids.set i source i.isLt) := by
  have hget : ∀ j : Fin sourceSlots,
      (ids.set i source i.isLt)[j] = if i = j then source else ids[j] := by
    intro j
    by_cases hij : i = j
    · subst hij
      simp
    · have hval : i.val ≠ j.val := fun h ↦ hij (Fin.ext h)
      simp [hij, Vector.getElem_set_ne, hval]
  refine ⟨⟨?_, ?_, ?_⟩, ?_⟩
  · intro j
    rw [hget]
    split
    · exact hlen
    · exact h.length j
  · rw [hget, if_neg hother]
    exact h.other
  · intro j k hj hjk
    rw [hget, hget] at hjk
    rw [hget] at hj
    -- The new id is none of the others, which are as they were.
    by_cases hij : i = j <;> by_cases hik : i = k
    · exact hik.symm.trans hij
    · rw [if_pos hij, if_neg hik] at hjk
      exact absurd hjk (habsent k)
    · rw [if_neg hij, if_pos hik] at hjk
      exact absurd hjk.symm (habsent j)
    · rw [if_neg hij] at hj
      rw [if_neg hij, if_neg hik] at hjk
      exact h.injective j k hj hjk
  · intro j hj
    rw [hget, if_neg]
    rintro rfl
    exact hj hempty

/-- **Where a source goes**: the index it is then counted under, and for good. -/
theorem dictionaryIndex_spec (h : ValidIds ids) (hne : source.bytes ≠ [])
    (hlen : source.bytes.length < sourceIdBytes) (collapsed : Bool) :
    ∃ ids' collapsed', dictionaryIndex ids source collapsed =
        (ids', slotIndex ids' source, collapsed') ∧
      ValidIds ids' ∧ Extends ids ids' ∧ Settled ids' source := by
  unfold dictionaryIndex
  by_cases hother : source = otherSourceId
  · rw [if_pos hother, hother, ← slotIndex_eq h (by decide) h.other]
    exact ⟨ids, collapsed, rfl, h, Extends.refl ids, Or.inl rfl⟩
  rw [if_neg hother]
  cases hfind : namedIndices.find? (fun i ↦ decide (ids[i] = source)) with
  | some i =>
    have hi : ids[i] = source := by simpa using List.find?_some hfind
    rw [← slotIndex_eq h hne hi]
    exact ⟨ids, collapsed, rfl, h, Extends.refl ids, Or.inr (Or.inl ⟨i, hi⟩)⟩
  | none =>
    have habsent : ∀ i : Fin sourceSlots, ids[i] ≠ source := by
      intro i hi
      by_cases hlast : i = otherIndex
      · rw [hlast, h.other] at hi
        exact hother hi.symm
      · exact List.find?_eq_none.1 hfind i (mem_namedIndices.2 hlast) (decide_eq_true hi)
    cases hfree : namedIndices.find? (fun i ↦ decide (ids[i].bytes = [])) with
    | some i =>
      have hempty : ids[i].bytes = [] := by simpa using List.find?_some hfree
      have hlast := mem_namedIndices.1 (List.mem_of_find?_eq_some hfree)
      have hcopy : source.strncpy (sourceIdBytes - 1) = source :=
        CString.strncpy_of_length_le (Nat.le_sub_one_of_lt hlen)
      obtain ⟨hvalid, hext⟩ := h.set hlast hlen habsent hempty
      have hentry : (ids.set i source i.isLt)[i] = source := by simp
      dsimp only
      rw [hcopy]
      refine ⟨ids.set i source i.isLt, collapsed, ?_, hvalid, hext, Or.inr (Or.inl ⟨i, hentry⟩)⟩
      rw [slotIndex_eq hvalid hne hentry]
    | none =>
      -- All the slots have other ids, so it is counted under `__other__`.
      have hfull : ∀ i : Fin sourceSlots, ids[i].bytes ≠ [] := by
        intro i hempty
        by_cases hlast : i = otherIndex
        · rw [hlast, h.other] at hempty
          exact absurd hempty (by decide)
        · exact List.find?_eq_none.1 hfree i (mem_namedIndices.2 hlast) (decide_eq_true hempty)
      refine ⟨ids, true, ?_, h, Extends.refl ids, Or.inr (Or.inr hfull)⟩
      rw [slotIndex_of_absent fun i _ ↦ habsent i]

/-! ### All sources -/

/-- The tokens that a list of sources has under an index. -/
def tokensAt (ids : Vector CString sourceSlots) (sources : List SourceTotal)
    (i : Fin sourceSlots) : ℕ :=
  (sources.map fun s ↦ if slotIndex ids s.id = i then s.tokens.toNat else 0).sum

/-- Sources with a name that fits. -/
def NamedSources (sources : List SourceTotal) : Prop :=
  ∀ s ∈ sources, s.id.bytes ≠ [] ∧ s.id.bytes.length < sourceIdBytes

/-- **The tokens of settled sources stay where they are.** -/
theorem tokensAt_extend (h : ValidIds ids) (h' : ValidIds ids') (hext : Extends ids ids')
    {sources : List SourceTotal} (hnamed : NamedSources sources)
    (hsettled : ∀ s ∈ sources, Settled ids s.id) (i : Fin sourceSlots) :
    tokensAt ids' sources i = tokensAt ids sources i := by
  unfold tokensAt
  congr 1
  refine List.map_congr_left fun s hs ↦ ?_
  rw [slotIndex_extend h h' hext (hsettled s hs) (hnamed s hs).1]

/-- The tokens under all indices are those of all sources. -/
theorem sum_tokensAt (sources : List SourceTotal) :
    ∑ i, tokensAt ids sources i = (sources.map fun s ↦ s.tokens.toNat).sum := by
  unfold tokensAt
  induction sources with
  | nil => simp
  | cons s sources ih =>
    simp only [List.map_cons, List.sum_cons, Finset.sum_add_distrib, ih]
    rw [Finset.sum_ite_eq Finset.univ (slotIndex ids s.id), if_pos (Finset.mem_univ _)]

/-- Nothing is counted under an index without an id. -/
theorem tokensAt_unnamed (h : ValidIds ids) {sources : List SourceTotal}
    (hnamed : NamedSources sources) {i : Fin sourceSlots} (hi : ids[i].bytes = []) :
    tokensAt ids sources i = 0 := by
  unfold tokensAt
  rw [List.sum_eq_zero_iff]
  intro n hn
  obtain ⟨s, hs, rfl⟩ := List.mem_map.1 hn
  rw [if_neg]
  intro hindex
  have hne := slotIndex_named h (hnamed s hs).1
  simp only [hindex] at hne
  exact hne hi

/-- The sum over a vector one entry of which has grown. -/
theorem sum_set_add {v : Vector UInt64 sourceSlots} {k : Fin sourceSlots} {t : UInt64}
    (h : v[k].toNat + t.toNat < 2 ^ 64) :
    (∀ i : Fin sourceSlots,
      (v.set k (v[k] + t) k.isLt)[i].toNat = v[i].toNat + if k = i then t.toNat else 0) ∧
    ∑ i : Fin sourceSlots, (v.set k (v[k] + t) k.isLt)[i].toNat =
      ∑ i : Fin sourceSlots, v[i].toNat + t.toNat := by
  have hget : ∀ i : Fin sourceSlots,
      (v.set k (v[k] + t) k.isLt)[i].toNat = v[i].toNat + if k = i then t.toNat else 0 := by
    intro i
    by_cases hi : k = i
    · subst hi
      rw [if_pos rfl, ← UInt64.toNat_add_of_lt h]
      simp
    · have hval : k.val ≠ i.val := fun h ↦ hi (Fin.ext h)
      rw [if_neg hi, Nat.add_zero]
      simp [Vector.getElem_set_ne, hval]
  refine ⟨hget, ?_⟩
  simp only [hget, Finset.sum_add_distrib]
  rw [Finset.sum_ite_eq Finset.univ k, if_pos (Finset.mem_univ _)]

/-- **The loop over the sources** never overflows when their sum does not. -/
theorem placeSources_spec {sources : List SourceTotal} {next : DailySlot} (h : ValidIds ids)
    (hnamed : NamedSources sources)
    (hsum : ∑ i : Fin sourceSlots, next.sourceTokens[i].toNat +
      (sources.map fun s ↦ s.tokens.toNat).sum < 2 ^ 64) :
    ∃ ids' sourceTokens sourcesCollapsed,
      placeSources sources ids next =
        (ids', .ok { next with sourceTokens, sourcesCollapsed }) ∧
      ValidIds ids' ∧ Extends ids ids' ∧ (∀ s ∈ sources, Settled ids' s.id) ∧
      ∀ i : Fin sourceSlots,
        sourceTokens[i].toNat = next.sourceTokens[i].toNat + tokensAt ids' sources i := by
  induction sources generalizing ids next with
  | nil =>
    exact ⟨ids, next.sourceTokens, next.sourcesCollapsed, rfl, h, Extends.refl ids, by simp,
      fun i ↦ rfl⟩
  | cons s sources ih =>
    obtain ⟨hne, hlen⟩ := hnamed s (List.mem_cons_self ..)
    have hrest : NamedSources sources := fun s hs ↦ hnamed s (List.mem_cons_of_mem _ hs)
    rw [List.map_cons, List.sum_cons] at hsum
    obtain ⟨ids₁, collapsed₁, hindex, h₁, hext₁, hsettled₁⟩ :=
      dictionaryIndex_spec h hne hlen next.sourcesCollapsed
    generalize hk : slotIndex ids₁ s.id = k at hindex
    have hle : next.sourceTokens[k].toNat ≤ ∑ i : Fin sourceSlots, next.sourceTokens[i].toNat :=
      Finset.single_le_sum (f := fun i : Fin sourceSlots ↦ next.sourceTokens[i].toNat)
        (fun _ _ ↦ Nat.zero_le _) (Finset.mem_univ k)
    obtain ⟨hget, hgrown⟩ := @sum_set_add next.sourceTokens k s.tokens (by omega)
    obtain ⟨ids', sourceTokens, sourcesCollapsed, hplace, h', hext', hsettled', htokens⟩ :=
      @ih ids₁ { next with
        sourceTokens := next.sourceTokens.set k (next.sourceTokens[k] + s.tokens) k.isLt
        sourcesCollapsed := collapsed₁ } h₁ hrest (by rw [hgrown]; omega)
    refine ⟨ids', sourceTokens, sourcesCollapsed, ?_, h', hext₁.trans hext', ?_, ?_⟩
    · rw [placeSources, hindex]
      dsimp only
      rw [if_neg (mt (uint64Max_sub_lt_iff _ _).1 (by omega))]
      exact hplace
    · intro s' hs'
      rcases List.mem_cons.1 hs' with rfl | hs'
      · exact hsettled₁.extend hext' hne
      · exact hsettled' s' hs'
    · intro i
      -- Ids are only added, so the index stays the one of this source.
      have hstay := slotIndex_extend h₁ h' hext' hsettled₁ hne
      rw [htokens, hget]
      unfold tokensAt
      rw [List.map_cons, List.sum_cons, hstay, hk, Nat.add_assoc]

end VibeUsage
