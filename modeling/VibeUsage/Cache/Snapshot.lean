import VibeUsage.Cache.Window

/-!
# The snapshot of a valid cache

`vibe_cache_build_snapshot` ranks the named sources by the selected window, shows the first of them,
and folds the rest into `__other__`. The rows are a permutation of the sources up to that fold, so
both windows still add up, whichever was selected.

* `rankSources_pairwise` is the order of the rows, by the selected window and then by the id.
* `ranksSources_append` says which sources get a row, and that those left out rank behind.
* `sum_rows` says that nothing is lost in the fold, in either window.
* `vibeCacheBuildSnapshot_isSnapshot` puts them together, for every valid cache and every day.
-/

namespace VibeUsage

variable {cache : VibeCache} {today : Int32} {window : Window} {g : Gathered}

/-! ### The order of the rows -/

/-- More tokens first, and ids in order among equal tokens. -/
def RanksBefore (tokens : ℕ) (id : CString) (tokens' : ℕ) (id' : CString) : Prop :=
  tokens' < tokens ∨ tokens = tokens' ∧ id.strcmpLt id'

/-- The order of the source. -/
theorem sourcePrecedes_iff {ids : Vector CString sourceSlots} {left right : RankedSource} :
    sourcePrecedes ids left right = true ↔
      RanksBefore left.selected.toNat ids[left.dictionaryIndex]
        right.selected.toNat ids[right.dictionaryIndex] := by
  unfold sourcePrecedes RanksBefore
  by_cases h : left.selected = right.selected
  · rw [if_neg (not_not.2 h), decide_eq_true_eq, h]
    simp
  · have hnat : left.selected.toNat ≠ right.selected.toNat := mt UInt64.toNat_inj.1 h
    rw [if_pos h, decide_eq_true_eq, gt_iff_lt, UInt64.lt_iff_toNat_lt]
    omega

/-- It is transitive. -/
theorem RanksBefore.trans {a b c : ℕ} {s t u : CString} (h : RanksBefore a s b t)
    (h' : RanksBefore b t c u) : RanksBefore a s c u := by
  rcases h with h | ⟨rfl, h⟩
  · rcases h' with h' | ⟨rfl, -⟩
    · exact Or.inl (Nat.lt_trans h' h)
    · exact Or.inl h
  · rcases h' with h' | ⟨rfl, h'⟩
    · exact Or.inl h'
    · exact Or.inr ⟨rfl, List.lt_trans h h'⟩

/-- Distinct ids are ordered one way or the other. -/
theorem RanksBefore.total {a b : ℕ} {s t : CString} (h : s ≠ t) :
    RanksBefore a s b t ∨ RanksBefore b t a s := by
  rcases Nat.lt_trichotomy a b with hlt | rfl | hlt
  · exact Or.inr (Or.inl hlt)
  · rcases CString.strcmpLt_or_gt h with hlt | hlt
    · exact Or.inl (Or.inr ⟨rfl, hlt⟩)
    · exact Or.inr (Or.inr ⟨rfl, hlt⟩)
  · exact Or.inl (Or.inl hlt)

/-! ### The ranked sources -/

/-- The named indices, and the collected one. -/
theorem finRange_sourceSlots : List.finRange sourceSlots = namedIndices ++ [otherIndex] := by
  decide

/-- A source is ranked when it has tokens. -/
theorem rankedItem_eq_some {ids : Vector CString sourceSlots} {source : Fin sourceSlots}
    {item : RankedSource} (h : rankedItem ids g window source = some item) :
    item.dictionaryIndex = source ∧ item.today = g.todayBySource[source] ∧
      item.seven = g.sevenBySource[source] ∧ ids[source].bytes ≠ [] := by
  unfold rankedItem at h
  split at h
  · cases h
  · rename_i hne
    cases Option.some.inj h
    exact ⟨rfl, rfl, rfl, fun h ↦ hne (Or.inl h)⟩

/-- Those are all that are ranked. -/
theorem mem_rankSources {ids : Vector CString sourceSlots} {item : RankedSource} :
    item ∈ rankSources ids g window ↔
      ∃ source, source ≠ otherIndex ∧ rankedItem ids g window source = some item := by
  rw [rankSources, (foldl_insertFromEnd_perm _ []).mem_iff, List.append_nil, List.mem_filterMap]
  simp only [mem_namedIndices]

/-- The ids of two ranked sources differ. -/
theorem rankedItems_pairwise (hcache : cache.Valid) :
    (namedIndices.filterMap (rankedItem cache.sourceIds g window)).Pairwise fun a b ↦
      cache.sourceIds[a.dictionaryIndex] ≠ cache.sourceIds[b.dictionaryIndex] := by
  rw [List.pairwise_filterMap]
  have hnodup : namedIndices.Pairwise (· ≠ ·) := (List.nodup_finRange sourceSlots).filter _
  refine hnodup.imp ?_
  intro i j hne a ha b hb heq
  obtain ⟨rfl, -, -, -⟩ := rankedItem_eq_some ha
  obtain ⟨rfl, -, -, hnamed⟩ := rankedItem_eq_some hb
  exact hne (hcache.id_injective _ _ hnamed heq)

/-- **The sort ranks the sources.** -/
theorem rankSources_pairwise (hcache : cache.Valid) :
    (rankSources cache.sourceIds g window).Pairwise fun a b ↦
      sourcePrecedes cache.sourceIds a b = true := by
  refine foldl_insertFromEnd_pairwise ?_ ?_ List.Pairwise.nil
  · intro a b c hab hbc
    rw [sourcePrecedes_iff] at hab hbc ⊢
    exact hab.trans hbc
  · rw [List.nil_append]
    refine (rankedItems_pairwise hcache).imp ?_
    intro a b hne
    rw [sourcePrecedes_iff, sourcePrecedes_iff]
    exact (RanksBefore.total hne).symm

/-- No id is ranked twice. -/
theorem rankSources_ids_nodup (hcache : cache.Valid) :
    ((rankSources cache.sourceIds g window).map fun item ↦
      cache.sourceIds[item.dictionaryIndex]).Nodup := by
  have hperm := foldl_insertFromEnd_perm (r := sourcePrecedes cache.sourceIds)
    (namedIndices.filterMap (rankedItem cache.sourceIds g window)) []
  rw [List.append_nil] at hperm
  refine (hperm.map _).nodup_iff.2 ?_
  exact List.pairwise_map.2 (rankedItems_pairwise hcache)

/-- A sum over the sources, split into those ranked and `__other__`, when only those ranked have a
part in it. -/
theorem sum_rankSources {ids : Vector CString sourceSlots} (f : RankedSource → ℕ)
    (h : Fin sourceSlots → ℕ)
    (hf : ∀ {source item}, rankedItem ids g window source = some item → f item = h source)
    (hzero : ∀ {source}, rankedItem ids g window source = none → h source = 0) :
    ((rankSources ids g window).map f).sum + h otherIndex = ∑ source, h source := by
  have hperm := foldl_insertFromEnd_perm (r := sourcePrecedes ids)
    (namedIndices.filterMap (rankedItem ids g window)) []
  rw [List.append_nil] at hperm
  have hfilter : ∀ l : List (Fin sourceSlots),
      ((l.filterMap (rankedItem ids g window)).map f).sum = (l.map h).sum := by
    intro l
    induction l with
    | nil => rfl
    | cons source l ih =>
      cases hitem : rankedItem ids g window source with
      | none =>
        rw [List.filterMap_cons_none hitem, List.map_cons, List.sum_cons, hzero hitem, Nat.zero_add,
          ih]
      | some item =>
        rw [List.filterMap_cons_some hitem, List.map_cons, List.sum_cons, List.map_cons,
          List.sum_cons, hf hitem, ih]
  rw [rankSources, (hperm.map f).sum_eq, hfilter, Fin.sum_univ_def, finRange_sourceSlots,
    List.map_append, List.sum_append, List.map_singleton, List.sum_singleton]

/-! ### The fold into `__other__` -/

/-- **What does not get a row** is added up. -/
theorem foldOther_ok {items : List RankedSource} {otherToday otherSeven today seven : UInt64}
    (h : foldOther items otherToday otherSeven = .ok (today, seven)) :
    today.toNat = otherToday.toNat + (items.map fun item ↦ item.today.toNat).sum ∧
      seven.toNat = otherSeven.toNat + (items.map fun item ↦ item.seven.toNat).sum := by
  induction items generalizing otherToday otherSeven with
  | nil =>
    rw [foldOther] at h
    obtain ⟨rfl, rfl⟩ := Prod.mk.inj (Except.ok.inj h)
    exact ⟨rfl, rfl⟩
  | cons item items ih =>
    rw [foldOther] at h
    split at h
    · cases h
    rename_i hguard
    have htoday := mt (uint64Max_sub_lt_iff otherToday item.today).2 (not_or.1 hguard).1
    have hseven := mt (uint64Max_sub_lt_iff otherSeven item.seven).2 (not_or.1 hguard).2
    have hsums := ih h
    rw [UInt64.toNat_add_of_lt (by omega), UInt64.toNat_add_of_lt (by omega)] at hsums
    rw [List.map_cons, List.sum_cons, List.map_cons, List.sum_cons]
    omega

/-! ### Shares -/

/-- Shares that are rounded down one by one sum to at most the whole. -/
theorem sum_shares_le {tokens : List ℕ} {total : ℕ} (h : tokens.sum ≤ total) :
    (tokens.map fun part ↦ 10000 * part / total).sum ≤ 10000 := by
  have hsum : ∀ l : List ℕ, (l.map fun part ↦ 10000 * part / total).sum ≤
    10000 * l.sum / total := by
    intro l
    induction l with
    | nil => simp
    | cons part l ih =>
      rw [List.map_cons, List.sum_cons, List.sum_cons, Nat.mul_add]
      calc 10000 * part / total + (l.map fun part ↦ 10000 * part / total).sum
          ≤ 10000 * part / total + 10000 * l.sum / total := Nat.add_le_add_left ih _
        _ ≤ (10000 * part + 10000 * l.sum) / total := Nat.div_add_div_le_add_div
  calc (tokens.map fun part ↦ 10000 * part / total).sum
      ≤ 10000 * tokens.sum / total := hsum tokens
    _ ≤ 10000 := Nat.div_le_of_le_mul (by rw [Nat.mul_comm]; exact Nat.mul_le_mul_right _ h)

/-! ### The snapshot -/

/-- The tokens a row is ranked by. -/
def AgentUsage.selected (row : AgentUsage) : Window → ℕ
  | .today => row.todayTokens.toNat
  | .sevenDays => row.sevenDayTokens.toNat

/-- The number of days in a window. -/
def Window.days : Window → ℕ
  | .today => 1
  | .sevenDays => 7

/-- Whether the days of a window are all there. -/
def UsageSnapshot.complete (snapshot : UsageSnapshot) : Window → Bool
  | .today => snapshot.todayComplete
  | .sevenDays => snapshot.sevenDayComplete

def UsageSnapshot.selectedTokens (snapshot : UsageSnapshot) : Window → UInt64
  | .today => snapshot.todayTokens
  | .sevenDays => snapshot.sevenDayTokens

/-- The row of a named source: its id and its tokens in both windows. -/
def IsRowOf (cache : VibeCache) (today : Int32) (row : AgentUsage) (source : Fin sourceSlots) :
    Prop :=
  source ≠ otherIndex ∧ row.id.bytes ≠ [] ∧ row.id = cache.sourceIds[source] ∧
    row.todayTokens.toNat = sourceSum cache today 1 source ∧
    row.sevenDayTokens.toNat = sourceSum cache today 7 source

/-- The rows of a snapshot: named sources in rank order, and below them `__other__`. -/
structure RanksSources (cache : VibeCache) (today : Int32) (window : Window)
    (agents : List AgentUsage) : Prop where
  /-- There is room for them. -/
  length_le : agents.length ≤ maxAgents
  ids_nodup : (agents.map fun row ↦ row.id).Nodup
  /-- `__other__` is last. -/
  other_last : ∀ row ∈ agents.dropLast, row.id ≠ otherSourceId
  named : ∀ row ∈ agents, row.id ≠ otherSourceId → ∃ source, IsRowOf cache today row source
  ranked : (agents.filter fun row ↦ row.id ≠ otherSourceId).Pairwise fun a b ↦
    RanksBefore (a.selected window) a.id (b.selected window) b.id
  /-- A named source with tokens that has no row ranks after those that have one. -/
  left_out : ∀ source, source ≠ otherIndex →
    sourceSum cache today 1 source ≠ 0 ∨ sourceSum cache today 7 source ≠ 0 →
    (∀ row ∈ agents, row.id ≠ cache.sourceIds[source]) →
    ∀ row ∈ agents, row.id ≠ otherSourceId →
      RanksBefore (row.selected window) row.id (sourceSum cache today window.days source)
        cache.sourceIds[source]

/-- What a snapshot says of one window: its total, the tokens of the rows, and their shares. -/
structure AddsUp (cache : VibeCache) (today : Int32) (n : ℕ) (total : UInt64)
    (rows : List (UInt64 × UInt16)) : Prop where
  total_eq : total.toNat = totalSum cache today n
  /-- Nothing is lost in the fold, or counted twice. -/
  tokens_sum : (rows.map fun row ↦ row.1.toNat).sum = total.toNat
  share : ∀ row ∈ rows, row.2.toNat = 10000 * row.1.toNat / total.toNat
  share_sum : (rows.map fun row ↦ row.2.toNat).sum ≤ 10000

/-- What the snapshot of a cache is. -/
structure IsSnapshot (cache : VibeCache) (today : Int32) (window : Window)
    (snapshot : UsageSnapshot) : Prop where
  todayWindow : AddsUp cache today 1 snapshot.todayTokens
    (snapshot.agents.map fun row ↦ (row.todayTokens, row.todayBp))
  sevenDayWindow : AddsUp cache today 7 snapshot.sevenDayTokens
    (snapshot.agents.map fun row ↦ (row.sevenDayTokens, row.sevenDayBp))
  rows : RanksSources cache today window snapshot.agents
  /-- Bit `k` of the mask is set when the day `k` days before today is stored. -/
  mask : ∀ k, snapshot.validDaysMask.toNat.testBit k = true ↔
    k < 7 ∧ ∃ day : Fin cacheDays, cache.days[day].valid = true ∧ cache.days[day].age today = k
  todayComplete : snapshot.todayComplete = snapshot.validDaysMask.toNat.testBit 0
  sevenDayComplete : snapshot.sevenDayComplete = true ↔
    ∀ k < 7, snapshot.validDaysMask.toNat.testBit k = true
  state : snapshot.state =
    snapshotState (snapshot.complete window) (snapshot.selectedTokens window)

/-- The shares of a window that adds up. -/
theorem AddsUp.intro {n : ℕ} {total : UInt64} {rows : List (UInt64 × UInt16)}
    (htotal : total.toNat = totalSum cache today n)
    (hsum : (rows.map fun row ↦ row.1.toNat).sum = total.toNat)
    (hshare : ∀ row ∈ rows, row.2 = vibeBasisPoints row.1 total) :
    AddsUp cache today n total rows := by
  have hbp : ∀ row ∈ rows, row.2.toNat = 10000 * row.1.toNat / total.toNat := by
    intro row hrow
    have hle : row.1.toNat ≤ total.toNat := by
      rw [← hsum]
      exact List.single_le_sum (fun _ _ ↦ Nat.zero_le _) _ (List.mem_map_of_mem hrow)
    rw [hshare row hrow, vibeBasisPoints_of_le hle]
  refine ⟨htotal, hsum, hbp, ?_⟩
  have hmap : (rows.map fun row ↦ row.2.toNat) =
      (rows.map fun row ↦ row.1.toNat).map fun part ↦ 10000 * part / total.toNat := by
    rw [List.map_map]
    exact List.map_congr_left fun row hrow ↦ hbp row hrow
  rw [hmap]
  exact sum_shares_le (Nat.le_of_eq hsum)

/-- Seven bits of the mask. -/
theorem and_eq_full_iff (mask : UInt8) :
    mask &&& 0x7F = 0x7F ↔ ∀ k < 7, mask.toNat.testBit k = true := by
  have hfull : (0x7F : UInt8).toNat = 2 ^ 7 - 1 := rfl
  rw [← UInt8.toNat_inj, UInt8.toNat_and, hfull]
  constructor
  · intro h k hk
    have hbit := congrArg (fun n ↦ n.testBit k) h
    simpa only [Nat.testBit_and, Nat.testBit_two_pow_sub_one, hk, decide_true, Bool.and_true]
      using hbit
  · intro h
    apply Nat.eq_of_testBit_eq
    intro k
    rw [Nat.testBit_and, Nat.testBit_two_pow_sub_one]
    by_cases hk : k < 7
    · rw [h k hk, Bool.true_and]
    · simp [hk]

/-! ### The rows -/

/-- The row of a ranked source. -/
def rowOf (cache : VibeCache) (g : Gathered) (item : RankedSource) : AgentUsage :=
  agentRow g cache.sourceIds[item.dictionaryIndex] item.today item.seven

/-- An id of the dictionary fits its row. -/
theorem rowOf_id (hcache : cache.Valid) (item : RankedSource) :
    (rowOf cache g item).id = cache.sourceIds[item.dictionaryIndex] := by
  have hlen := hcache.id_length item.dictionaryIndex
  exact CString.strncpy_of_length_le (Nat.le_sub_one_of_lt hlen)

/-- The collected row has the collected id. -/
theorem agentRow_other_id (today seven : UInt64) :
    (agentRow g otherSourceId today seven).id = otherSourceId :=
  CString.strncpy_of_length_le (by decide)

/-- A row is ranked by the tokens it shows. -/
theorem rowOf_selected {item : RankedSource} (h : item ∈ rankSources cache.sourceIds g window) :
    (rowOf cache g item).selected window = item.selected.toNat := by
  obtain ⟨source, -, hitem⟩ := mem_rankSources.1 h
  unfold rankedItem at hitem
  split at hitem
  · cases hitem
  · cases Option.some.inj hitem
    cases window <;> rfl

/-- **A ranked source's row has its id and its tokens.** -/
theorem isRowOf_of_mem (hcache : cache.Valid) (hg : Gathers cache today 7 g) {item : RankedSource}
    (h : item ∈ rankSources cache.sourceIds g window) :
    IsRowOf cache today (rowOf cache g item) item.dictionaryIndex := by
  obtain ⟨source, hne, hitem⟩ := mem_rankSources.1 h
  obtain ⟨rfl, htoday, hseven, hnamed⟩ := rankedItem_eq_some hitem
  refine ⟨hne, ?_, rowOf_id hcache item, ?_, ?_⟩
  · rwa [rowOf_id hcache item]
  · show item.today.toNat = _
    rw [htoday]
    exact hg.todayBySource _
  · show item.seven.toNat = _
    rw [hseven]
    exact hg.sevenBySource _

/-- A row of its own has an id of its own. -/
theorem IsRowOf.id_ne_other (hcache : cache.Valid) {row : AgentUsage} {source : Fin sourceSlots}
    (h : IsRowOf cache today row source) : row.id ≠ otherSourceId := by
  obtain ⟨hne, hnamed, hid, -⟩ := h
  intro hother
  have hsame : cache.sourceIds[source] = cache.sourceIds[otherIndex] := by
    rw [← hid, hother, hcache.id_other]
  refine hne (hcache.id_injective otherIndex source ?_ hsame)
  rw [hcache.id_other]
  decide

/-- A named source with tokens is ranked. -/
theorem exists_ranked (hcache : cache.Valid) (hg : Gathers cache today 7 g)
    {source : Fin sourceSlots} (hne : source ≠ otherIndex)
    (h : sourceSum cache today 1 source ≠ 0 ∨ sourceSum cache today 7 source ≠ 0) :
    ∃ item ∈ rankSources cache.sourceIds g window, item.dictionaryIndex = source := by
  have hnamed : cache.sourceIds[source].bytes ≠ [] := by
    intro hempty
    rw [sourceSum_of_unnamed hcache hempty, sourceSum_of_unnamed hcache hempty] at h
    omega
  have htokens : ¬ (g.todayBySource[source] = 0 ∧ g.sevenBySource[source] = 0) := by
    rintro ⟨htoday, hseven⟩
    have h₁ := hg.todayBySource source
    have h₂ := hg.sevenBySource source
    rw [htoday, UInt64.toNat_zero] at h₁
    rw [hseven, UInt64.toNat_zero] at h₂
    exact h.elim (fun h ↦ h h₁.symm) fun h ↦ h h₂.symm
  cases hitem : rankedItem cache.sourceIds g window source with
  | none =>
    unfold rankedItem at hitem
    rw [if_neg (not_or.2 ⟨hnamed, htokens⟩)] at hitem
    cases hitem
  | some item =>
    exact ⟨item, mem_rankSources.2 ⟨source, hne, hitem⟩, (rankedItem_eq_some hitem).1⟩

/-- **The rows**: the first of the ranked sources, and `__other__` when there is something in it. -/
theorem ranksSources_append (hcache : cache.Valid) (hg : Gathers cache today 7 g) {visible : ℕ}
    (hvisible : visible ≤ maxAgents - 1) {other : List AgentUsage}
    (hother : other = [] ∨ ∃ row, other = [row] ∧ row.id = otherSourceId) :
    RanksSources cache today window
      (((rankSources cache.sourceIds g window).take visible).map (rowOf cache g) ++ other) := by
  have hmax : maxAgents = 12 := rfl
  have hsub : ∀ item ∈ (rankSources cache.sourceIds g window).take visible,
      item ∈ rankSources cache.sourceIds g window := fun item h ↦ List.mem_of_mem_take h
  have hshown : ∀ row ∈ ((rankSources cache.sourceIds g window).take visible).map (rowOf cache g),
      row.id ≠ otherSourceId := by
    intro row hrow
    obtain ⟨item, hitem, rfl⟩ := List.mem_map.1 hrow
    exact (isRowOf_of_mem hcache hg (hsub item hitem)).id_ne_other hcache
  have hlast : ∀ row ∈ other, row.id = otherSourceId := by
    rcases hother with rfl | ⟨row, rfl, hrow⟩
    · simp
    · simpa using hrow
  have hnamed : ∀ row, row ∈ ((rankSources cache.sourceIds g window).take visible).map
      (rowOf cache g) ++ other → row.id ≠ otherSourceId →
      ∃ item ∈ (rankSources cache.sourceIds g window).take visible, rowOf cache g item = row := by
    intro row hrow hid
    rcases List.mem_append.1 hrow with hrow | hrow
    · exact List.mem_map.1 hrow
    · exact absurd (hlast row hrow) hid
  have hpair := @rankSources_pairwise cache window g hcache
  -- The fields of `RanksSources`, in order: at most `maxAgents` rows, no id twice, `__other__`
  -- last.
  refine ⟨?_, ?_, ?_, ?_, ?_, ?_⟩
  · have hlen : other.length ≤ 1 := by
      rcases hother with rfl | ⟨row, rfl, -⟩ <;> simp
    rw [List.length_append, List.length_map, List.length_take]
    omega
  · have hids : ((rankSources cache.sourceIds g window).take visible).map
        (fun item ↦ (rowOf cache g item).id) =
        ((rankSources cache.sourceIds g window).map fun item ↦
          cache.sourceIds[item.dictionaryIndex]).take visible := by
      rw [← List.map_take]
      exact List.map_congr_left fun item _ ↦ rowOf_id hcache item
    rw [List.map_append, List.nodup_append, List.map_map]
    refine ⟨?_, ?_, ?_⟩
    · exact hids ▸ (rankSources_ids_nodup hcache).sublist (List.take_sublist _ _)
    · rcases hother with rfl | ⟨row, rfl, -⟩ <;> simp
    · intro a ha b hb
      obtain ⟨item, hitem, rfl⟩ := List.mem_map.1 ha
      obtain ⟨row, hrow, rfl⟩ := List.mem_map.1 hb
      rw [hlast row hrow]
      exact hshown _ (List.mem_map_of_mem hitem)
  · intro row hrow
    rcases hother with rfl | ⟨last, rfl, -⟩
    · rw [List.append_nil] at hrow
      exact hshown row (List.mem_of_mem_dropLast hrow)
    · rw [List.dropLast_concat] at hrow
      exact hshown row hrow
  · intro row hrow hid
    obtain ⟨item, hitem, rfl⟩ := hnamed row hrow hid
    exact ⟨_, isRowOf_of_mem hcache hg (hsub item hitem)⟩
  · have hfilter : other.filter (fun row ↦ decide (row.id ≠ otherSourceId)) = [] := by
      rw [List.filter_eq_nil_iff]
      intro row hrow
      simpa using hlast row hrow
    rw [List.filter_append, hfilter, List.append_nil]
    refine List.Pairwise.filter _ (List.pairwise_map.2 ?_)
    refine (hpair.sublist (List.take_sublist _ _)).imp_of_mem ?_
    intro a b ha hb hab
    rw [rowOf_id hcache, rowOf_id hcache, rowOf_selected (hsub a ha), rowOf_selected (hsub b hb)]
    exact sourcePrecedes_iff.1 hab
  · intro source hne hsome habsent row hrow hid
    obtain ⟨item, hitem, rfl⟩ := hnamed row hrow hid
    obtain ⟨out, hout, rfl⟩ := @exists_ranked cache today window g hcache hg _ hne hsome
    rw [← List.take_append_drop visible (rankSources cache.sourceIds g window)] at hout hpair
    rcases List.mem_append.1 hout with hmem | hmem
    · exact absurd (rowOf_id hcache out)
        (habsent _ (List.mem_append_left _ (List.mem_map_of_mem hmem)))
    · have hrank := sourcePrecedes_iff.1
        ((List.pairwise_append.1 hpair).2.2 item hitem out hmem)
      have hout' : out ∈ rankSources cache.sourceIds g window := List.mem_of_mem_drop hmem
      have htokens := (isRowOf_of_mem hcache hg hout').2.2.2
      have hselected : (rowOf cache g out).selected window =
          sourceSum cache today window.days out.dictionaryIndex := by
        cases window
        · exact htokens.1
        · exact htokens.2
      rw [← rowOf_selected (hsub item hitem), ← rowOf_selected hout', hselected] at hrank
      rwa [rowOf_id hcache]

/-- The row of `__other__`, when it has tokens in either window. -/
def otherRow (g : Gathered) (otherToday otherSeven : UInt64) : List AgentUsage :=
  if otherToday ≠ 0 ∨ otherSeven ≠ 0 then [agentRow g otherSourceId otherToday otherSeven] else []

/-- There is always room for `__other__`. -/
theorem append_otherRow {named : List AgentUsage} {otherToday otherSeven : UInt64}
    (h : named.length < maxAgents) :
    (if (otherToday ≠ 0 ∨ otherSeven ≠ 0) ∧ named.length < maxAgents then
      named ++ [agentRow g otherSourceId otherToday otherSeven] else named) =
      named ++ otherRow g otherToday otherSeven := by
  unfold otherRow
  by_cases hother : otherToday ≠ 0 ∨ otherSeven ≠ 0
  · rw [if_pos ⟨hother, h⟩, if_pos hother]
  · rw [if_neg fun h ↦ hother h.1, if_neg hother, List.append_nil]

/-- The collected row shows the sum. -/
theorem otherRow_sum {otherToday otherSeven : UInt64} :
    ((otherRow g otherToday otherSeven).map fun row ↦ row.todayTokens.toNat).sum =
      otherToday.toNat ∧
    ((otherRow g otherToday otherSeven).map fun row ↦ row.sevenDayTokens.toNat).sum =
      otherSeven.toNat := by
  unfold otherRow
  split
  · exact ⟨Nat.add_zero _, Nat.add_zero _⟩
  · rename_i h
    obtain ⟨htoday, hseven⟩ := not_or.1 h
    rw [not_not.1 htoday, not_not.1 hseven]
    exact ⟨rfl, rfl⟩

/-- **Each window adds up**, whichever was selected: what is not shown is in `__other__`. -/
theorem sum_rows (hcache : cache.Valid) (hg : Gathers cache today 7 g) {visible : ℕ}
    {otherToday otherSeven : UInt64}
    (hfold : foldOther ((rankSources cache.sourceIds g window).drop visible)
      g.todayBySource[otherIndex] g.sevenBySource[otherIndex] = .ok (otherToday, otherSeven)) :
    ((((rankSources cache.sourceIds g window).take visible).map (rowOf cache g) ++
      otherRow g otherToday otherSeven).map fun row ↦ row.todayTokens.toNat).sum =
        g.todayTokens.toNat ∧
    ((((rankSources cache.sourceIds g window).take visible).map (rowOf cache g) ++
      otherRow g otherToday otherSeven).map fun row ↦ row.sevenDayTokens.toNat).sum =
        g.sevenDayTokens.toNat := by
  obtain ⟨htoday, hseven⟩ := foldOther_ok hfold
  have hsplit : ∀ f : RankedSource → ℕ,
      (((rankSources cache.sourceIds g window).take visible).map f).sum +
        (((rankSources cache.sourceIds g window).drop visible).map f).sum =
      ((rankSources cache.sourceIds g window).map f).sum := by
    intro f
    rw [← List.sum_append, ← List.map_append, List.take_append_drop]
  -- A source that is not ranked has no tokens in either window.
  have hnone : ∀ {source}, rankedItem cache.sourceIds g window source = none →
      g.todayBySource[source].toNat = 0 ∧ g.sevenBySource[source].toNat = 0 := by
    intro source hitem
    unfold rankedItem at hitem
    split at hitem
    · rename_i h
      rcases h with hempty | ⟨h₁, h₂⟩
      · rw [hg.todayBySource, hg.sevenBySource]
        exact ⟨sourceSum_of_unnamed hcache hempty, sourceSum_of_unnamed hcache hempty⟩
      · rw [h₁, h₂]
        exact ⟨rfl, rfl⟩
    · cases hitem
  have hsumToday := sum_rankSources (fun item ↦ item.today.toNat)
    (fun source ↦ g.todayBySource[source].toNat)
    (fun h ↦ congrArg UInt64.toNat (rankedItem_eq_some h).2.1) fun h ↦ (hnone h).1
  have hsumSeven := sum_rankSources (fun item ↦ item.seven.toNat)
    (fun source ↦ g.sevenBySource[source].toNat)
    (fun h ↦ congrArg UInt64.toNat (rankedItem_eq_some h).2.2.1) fun h ↦ (hnone h).2
  -- The total of a window is the sum over its sources.
  have htotalToday : ∑ source : Fin sourceSlots, g.todayBySource[source].toNat =
      g.todayTokens.toNat := by
    rw [hg.todayTokens, ← sum_sourceSum hcache]
    exact Finset.sum_congr rfl fun source _ ↦ hg.todayBySource source
  have htotalSeven : ∑ source : Fin sourceSlots, g.sevenBySource[source].toNat =
      g.sevenDayTokens.toNat := by
    rw [hg.seven, ← sum_sourceSum hcache]
    exact Finset.sum_congr rfl fun source _ ↦ hg.sevenBySource source
  rw [List.map_append, List.sum_append, otherRow_sum.1, List.map_map, List.map_append,
    List.sum_append, otherRow_sum.2, List.map_map]
  have h₁ := hsplit fun item ↦ item.today.toNat
  have h₂ := hsplit fun item ↦ item.seven.toNat
  constructor
  · show (((rankSources cache.sourceIds g window).take visible).map
      fun item ↦ item.today.toNat).sum + _ = _
    omega
  · show (((rankSources cache.sourceIds g window).take visible).map
      fun item ↦ item.seven.toNat).sum + _ = _
    omega

/-- **What `vibe_cache_build_snapshot` returns for a valid cache.** -/
theorem vibeCacheBuildSnapshot_isSnapshot {snapshot : UsageSnapshot}
    (hcache : validateCache cache = true)
    (h : vibeCacheBuildSnapshot cache today window = .ok snapshot) :
    IsSnapshot cache today window snapshot := by
  have hcache := validateCache_iff.1 hcache
  unfold vibeCacheBuildSnapshot at h
  split at h
  · cases h
  split at h
  · cases h
  rename_i g hgather
  have hg : Gathers cache today 7 g := by
    rw [List.range_eq_range'] at hgather
    exact gathers_of_gatherDays (n := 0) hcache (by omega) gathers_zero hgather
  dsimp only at h
  split at h
  · cases h
  rename_i otherToday otherSeven hfold
  generalize hvisible : min (rankSources cache.sourceIds g window).length (maxAgents - 1) =
    visible at h hfold
  have hle : visible ≤ maxAgents - 1 := hvisible ▸ Nat.min_le_right _ _
  have hroom : (((rankSources cache.sourceIds g window).take visible).map (rowOf cache g)).length <
      maxAgents := by
    have hmax : maxAgents = 12 := rfl
    rw [List.length_map, List.length_take]
    omega
  have hagents := @append_otherRow g _ otherToday otherSeven hroom
  obtain ⟨hsumToday, hsumSeven⟩ := sum_rows hcache hg hfold
  have hother : otherRow g otherToday otherSeven = [] ∨
      ∃ row, otherRow g otherToday otherSeven = [row] ∧ row.id = otherSourceId := by
    unfold otherRow
    split
    · exact Or.inr ⟨_, rfl, agentRow_other_id _ _⟩
    · exact Or.inl rfl
  -- every row has the shares of its tokens
  have hshares : ∀ row ∈ ((rankSources cache.sourceIds g window).take visible).map
    (rowOf cache g) ++
      otherRow g otherToday otherSeven,
      row.todayBp = vibeBasisPoints row.todayTokens g.todayTokens ∧
        row.sevenDayBp = vibeBasisPoints row.sevenDayTokens g.sevenDayTokens := by
    intro row hrow
    rcases List.mem_append.1 hrow with hrow | hrow
    · obtain ⟨item, -, rfl⟩ := List.mem_map.1 hrow
      exact ⟨rfl, rfl⟩
    · unfold otherRow at hrow
      split at hrow
      · rw [List.mem_singleton.1 hrow]
        exact ⟨rfl, rfl⟩
      · cases hrow
  have hrows := @ranksSources_append cache today window g hcache hg _ hle _ hother
  have hsnapshot := Except.ok.inj h
  have hlist : snapshot.agents = ((rankSources cache.sourceIds g window).take visible).map
      (rowOf cache g) ++ otherRow g otherToday otherSeven := by
    rw [← hsnapshot]
    exact hagents
  have htoday : snapshot.todayTokens = g.todayTokens := by rw [← hsnapshot]
  have hseven : snapshot.sevenDayTokens = g.sevenDayTokens := by rw [← hsnapshot]
  have hmask : snapshot.validDaysMask = g.validDaysMask := by rw [← hsnapshot]
  refine ⟨?_, ?_, ?_, ?_, ?_, ?_, ?_⟩
  · rw [hlist, htoday]
    refine AddsUp.intro hg.todayTokens ?_ ?_
    · rw [List.map_map]
      exact hsumToday
    · intro row hrow
      obtain ⟨row, hmem, rfl⟩ := List.mem_map.1 hrow
      exact (hshares row hmem).1
  · rw [hlist, hseven]
    refine AddsUp.intro hg.seven ?_ ?_
    · rw [List.map_map]
      exact hsumSeven
    · intro row hrow
      obtain ⟨row, hmem, rfl⟩ := List.mem_map.1 hrow
      exact (hshares row hmem).2
  · rwa [hlist]
  · intro k
    rw [hmask, hg.mask]
    constructor
    · rintro ⟨day, hday, hage⟩
      obtain ⟨hvalid, -, hlt⟩ := mem_windowDays.1 hday
      exact ⟨by omega, day, hvalid, hage⟩
    · rintro ⟨hlt, day, hvalid, hage⟩
      exact ⟨day, mem_windowDays.2 ⟨hvalid, by omega, by omega⟩, hage⟩
  · rw [hmask, ← hg.todayComplete, ← hsnapshot]
  · rw [hmask, ← and_eq_full_iff, ← hsnapshot]
    exact decide_eq_true_iff
  · rw [← hsnapshot]
    cases window <;> rfl

/-- Three days of two sources. -/
theorem vibeCacheBuildSnapshot_isSnapshot_threeDays :
    ∃ snapshot, vibeCacheBuildSnapshot threeDays 20260715 .sevenDays = .ok snapshot ∧
      (snapshot.todayTokens = 49 ∧ snapshot.sevenDayTokens = 66 ∧
        snapshot.validDaysMask.toNat = 7) ∧
      IsSnapshot threeDays 20260715 .sevenDays snapshot := by
  have hok : ((vibeCacheBuildSnapshot threeDays 20260715 .sevenDays).map fun snapshot ↦
      (snapshot.todayTokens, snapshot.sevenDayTokens, snapshot.validDaysMask.toNat)).toOption =
        some (49, 66, 7) := by decide +kernel
  cases hbuild : vibeCacheBuildSnapshot threeDays 20260715 .sevenDays with
  | error error =>
    rw [hbuild] at hok
    cases hok
  | ok snapshot =>
    rw [hbuild] at hok
    obtain ⟨htoday, hrest⟩ := Prod.mk.inj (Option.some.inj hok)
    obtain ⟨hweek, hmask⟩ := Prod.mk.inj hrest
    exact ⟨snapshot, rfl, ⟨htoday, hweek, hmask⟩,
      vibeCacheBuildSnapshot_isSnapshot (by decide +kernel) hbuild⟩

end VibeUsage
