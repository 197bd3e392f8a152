import VibeUsage.Candidate

/-!
# What a day candidate tallies

The meaning of a list of buckets, apart from the order in which `vibe_day_candidate_add` builds it:
the first 23 ids keep a slot of their own, every other bucket is counted under `__other__`, and a
slot holds the sum of the buckets counted under it. `tallies_add` is the step, and a run of
additions is a fold of it.

`Accumulates` ties a candidate to the calls that were accepted so far, and
`vibeDayCandidateAdd_exact` is what follows for any calls, those that fail among them.
`addAll_countedEntry` compares a run with one in which long ids have already been replaced.
-/

namespace VibeUsage

/-- The ids that keep a slot of their own: the first 23 of them, in order of appearance. -/
def keptIds (ids : List CString) : List CString := ids.eraseDups.take (sourceSlots - 1)

/-- The slot an id is counted in, among the ids of a whole response. -/
def slotOf (ids : List CString) (id : CString) : CString :=
  if id ∈ keptIds ids then id else otherSourceId

/-- The tokens of the entries counted in a slot. -/
def tally (ids : List CString) (entries : List SourceTotal) (slot : CString) : ℕ :=
  (entries.map fun e ↦ if slot = slotOf ids e.id then e.tokens.toNat else 0).sum

/-- The slots of a response, in order: the kept ids, and `__other__` when an id was not kept. -/
def slotNames (ids : List CString) : List CString :=
  if keptIds ids = ids.eraseDups ∨ otherSourceId ∈ keptIds ids then keptIds ids
  else keptIds ids ++ [otherSourceId]

/-- The candidate counts exactly these entries. -/
structure Tallies (c : DayCandidate) (entries : List SourceTotal) : Prop where
  names : c.names = slotNames (entries.map fun e ↦ e.id)
  tokensOf : ∀ slot, c.tokensOf slot = tally (entries.map fun e ↦ e.id) entries slot
  total : c.totalTokens.toNat = (entries.map fun e ↦ e.tokens.toNat).sum

/-! ### One more id -/

/-- An id is new, or has been there. -/
theorem eraseDups_snoc (ids : List CString) (id : CString) :
    (ids ++ [id]).eraseDups = if id ∈ ids then ids.eraseDups else ids.eraseDups ++ [id] := by
  rw [List.eraseDups_append]
  by_cases h : id ∈ ids
  · simp [List.removeAll, h]
  · have hone : [id].eraseDups = [id] := by rw [List.eraseDups_cons]; rfl
    simp [List.removeAll, h, hone]

/-- While there is room, an id is kept. -/
theorem keptIds_of_room {ids : List CString} (h : ids.eraseDups.length < sourceSlots - 1)
    (id : CString) :
    keptIds ids = ids.eraseDups ∧ keptIds (ids ++ [id]) = (ids ++ [id]).eraseDups := by
  refine ⟨List.take_of_length_le (Nat.le_of_lt h), List.take_of_length_le ?_⟩
  rw [eraseDups_snoc]
  split
  · exact Nat.le_of_lt h
  · rw [List.length_append, List.length_singleton]
    exact h

/-- When there is none, the kept ids stay. -/
theorem keptIds_of_full {ids : List CString} (h : sourceSlots - 1 ≤ ids.eraseDups.length)
    (id : CString) : keptIds (ids ++ [id]) = keptIds ids := by
  unfold keptIds
  rw [eraseDups_snoc]
  split
  · rfl
  · rw [List.take_append_of_le_length h]

/-- An id that came before is kept as before. -/
theorem mem_keptIds_of_mem {ids : List CString} {id id' : CString} (h : id' ∈ ids) :
    id' ∈ keptIds (ids ++ [id]) ↔ id' ∈ keptIds ids := by
  rcases Nat.lt_or_ge ids.eraseDups.length (sourceSlots - 1) with hroom | hfull
  · obtain ⟨hkept, hkept'⟩ := keptIds_of_room hroom id
    rw [hkept, hkept', List.mem_eraseDups, List.mem_eraseDups]
    simp [h]
  · rw [keptIds_of_full hfull]

/-- So its slot is the same. -/
theorem slotOf_of_mem {ids : List CString} {id id' : CString} (h : id' ∈ ids) :
    slotOf (ids ++ [id]) id' = slotOf ids id' := by
  unfold slotOf
  rw [if_congr (mem_keptIds_of_mem h) rfl rfl]

/-- The slots are full when enough ids have come. -/
theorem length_slotNames {ids : List CString} (h : sourceSlots - 1 ≤ ids.eraseDups.length) :
    sourceSlots - 1 ≤ (slotNames ids).length := by
  have hkept : (keptIds ids).length = sourceSlots - 1 := by
    unfold keptIds
    rw [List.length_take, Nat.min_eq_left h]
  unfold slotNames
  split
  · exact Nat.le_of_eq hkept.symm
  · rw [List.length_append, hkept]
    exact Nat.le_add_right _ _

/-- The slot found for a new id, and the slots afterwards. -/
theorem slot_snoc {c : DayCandidate} {ids : List CString} (hc : c.names = slotNames ids)
    (id : CString) :
    slotFor c id = slotOf (ids ++ [id]) id ∧
      insertName c.names (slotFor c id) = slotNames (ids ++ [id]) := by
  have hlength : c.sources.length = (slotNames ids).length := by
    rw [← hc, DayCandidate.names, List.length_map]
  rcases Nat.lt_or_ge ids.eraseDups.length (sourceSlots - 1) with hroom | hfull
  · obtain ⟨hkept, hkept'⟩ := keptIds_of_room hroom id
    have hnames : slotNames ids = ids.eraseDups := by
      rw [slotNames, if_pos (Or.inl hkept), hkept]
    have hfor : slotFor c id = id := by
      refine if_neg ?_
      rintro ⟨-, -, h⟩
      rw [hlength, hnames] at h
      omega
    have hin : id ∈ (ids ++ [id]).eraseDups := by simp
    rw [hfor, hc, hnames, slotOf, hkept', if_pos hin, slotNames, if_pos (Or.inl hkept'), hkept',
      eraseDups_snoc]
    refine ⟨rfl, ?_⟩
    unfold insertName
    rw [if_congr List.mem_eraseDups rfl rfl]
  · have hkept := keptIds_of_full hfull id
    have hlong : c.sources.length ≥ sourceSlots - 1 := by
      rw [hlength]
      exact length_slotNames hfull
    have hsub : ∀ {a : CString}, a ∈ keptIds ids → a ∈ c.names := by
      intro a ha
      rw [hc]
      unfold slotNames
      split
      · exact ha
      · exact List.mem_append_left _ ha
    by_cases hid : id ∈ keptIds ids
    · have hin : id ∈ ids := List.mem_eraseDups.1 (List.mem_of_mem_take hid)
      have hfor : slotFor c id = id := if_neg fun h ↦ h.2.1 (hsub hid)
      rw [hfor, slotOf, hkept, if_pos hid, insertName, if_pos (hsub hid), hc]
      refine ⟨rfl, ?_⟩
      unfold slotNames
      rw [hkept, eraseDups_snoc, if_pos hin]
    · have hother : ∀ {a : CString}, a ∈ c.names → a ∉ keptIds ids → a = otherSourceId := by
        intro a ha hna
        rw [hc] at ha
        unfold slotNames at ha
        split at ha
        · exact absurd ha hna
        · exact List.mem_singleton.1 ((List.mem_append.1 ha).resolve_left hna)
      have hfor : slotFor c id = otherSourceId := by
        unfold slotFor
        by_cases h : id = otherSourceId
        · rw [if_neg (by tauto), h]
        · exact if_pos ⟨h, fun hin ↦ h (hother hin hid), hlong⟩
      rw [hfor, slotOf, hkept, if_neg hid]
      refine ⟨rfl, ?_⟩
      -- the new id is not among the kept ones, so they are not all
      have hne : keptIds ids ≠ (ids ++ [id]).eraseDups := by
        intro h
        have hin : id ∈ (ids ++ [id]).eraseDups := by simp
        exact hid (h ▸ hin)
      by_cases hothers : otherSourceId ∈ keptIds ids
      · rw [insertName, if_pos (hsub hothers), hc, slotNames, slotNames, hkept,
          if_pos (Or.inr hothers), if_pos (Or.inr hothers)]
      · have hafter : slotNames (ids ++ [id]) = keptIds ids ++ [otherSourceId] := by
          rw [slotNames, hkept, if_neg (not_or.2 ⟨hne, hothers⟩)]
        rw [hafter, insertName, hc, slotNames]
        by_cases hall : keptIds ids = ids.eraseDups
        · rw [if_pos (Or.inl hall), if_neg hothers]
        · rw [if_neg (not_or.2 ⟨hall, hothers⟩), if_pos (by simp)]

/-- A tally depends on the slots of its entries. -/
theorem tally_congr {ids ids' : List CString} {entries : List SourceTotal} {slot : CString}
    (h : ∀ e ∈ entries, slotOf ids e.id = slotOf ids' e.id) :
    tally ids entries slot = tally ids' entries slot := by
  unfold tally
  rw [List.map_congr_left fun e he ↦ by rw [h e he]]

/-- **One more entry.** -/
theorem tallies_add {c c' : DayCandidate} {entries : List SourceTotal} {e : SourceTotal}
    (hc : Tallies c entries) (h : Added c c' (slotFor c e.id) e.tokens) :
    Tallies c' (entries ++ [e]) := by
  have hids : (entries ++ [e]).map (fun e ↦ e.id) = entries.map (fun e ↦ e.id) ++ [e.id] := by simp
  obtain ⟨hslot, hnames⟩ := slot_snoc hc.names e.id
  refine ⟨?_, fun slot ↦ ?_, ?_⟩
  · rw [h.names, hnames, hids]
  · have hearlier : tally (entries.map (fun e ↦ e.id) ++ [e.id]) entries slot =
        tally (entries.map fun e ↦ e.id) entries slot :=
      tally_congr fun e' he' ↦ slotOf_of_mem (List.mem_map.2 ⟨e', he', rfl⟩)
    rw [h.tokensOf, hc.tokensOf, hids, ← hearlier, hslot]
    simp [tally]
  · rw [h.total, hc.total]
    simp

/-- A new candidate tallies nothing. -/
theorem tallies_init (dateKey : Int32) : Tallies (vibeDayCandidateInit dateKey) [] :=
  ⟨rfl, fun _ ↦ rfl, rfl⟩

/-! ### Runs of additions -/

/-- The candidate that a call leaves. -/
def addEntry (c : DayCandidate) (e : SourceTotal) : DayCandidate :=
  (vibeDayCandidateAdd c e.id e.tokens).2

/-- The candidate that some calls leave. -/
def addAll (c : DayCandidate) (calls : List SourceTotal) : DayCandidate := calls.foldl addEntry c

/-- The calls that return `VIBE_OK`. -/
def acceptedFrom : DayCandidate → List SourceTotal → List SourceTotal
  | _, [] => []
  | c, e :: calls =>
    (if (vibeDayCandidateAdd c e.id e.tokens).1 = none then [e] else []) ++
      acceptedFrom (addEntry c e) calls

/-- The entry under the id it is counted under. -/
def countedEntry (e : SourceTotal) : SourceTotal := { e with id := countedId e.id }

/-- The ids of the accepted calls, as they are counted. -/
def countedIds (accepted : List SourceTotal) : List CString :=
  (accepted.map countedEntry).map fun e ↦ e.id

/-- An id is counted when an entry is counted under it. -/
theorem mem_countedIds {accepted : List SourceTotal} {id : CString} :
    id ∈ countedIds accepted ↔ ∃ e ∈ accepted, countedId e.id = id := by
  simp [countedIds, countedEntry]

/-- The invariant of a run: a well-formed candidate that tallies the accepted calls. -/
structure Accumulates (c : DayCandidate) (accepted : List SourceTotal) : Prop where
  wellFormed : c.WellFormed
  tallies : Tallies c (accepted.map countedEntry)

/-- **The slots** are those of the ids that have come. -/
theorem Accumulates.names {c : DayCandidate} {accepted : List SourceTotal}
    (h : Accumulates c accepted) :
    c.names = slotNames (countedIds accepted) :=
  h.tallies.names

/-- A new candidate has accumulated nothing. -/
theorem accumulates_init (dateKey : Int32) : Accumulates (vibeDayCandidateInit dateKey) [] :=
  ⟨wellFormed_init dateKey, tallies_init dateKey⟩

/-- What is accepted of both parts. -/
theorem acceptedFrom_append (c : DayCandidate) (before after : List SourceTotal) :
    acceptedFrom c (before ++ after) = acceptedFrom c before ++ acceptedFrom (addAll c before)
      after := by
  induction before generalizing c with
  | nil => rfl
  | cons e before ih =>
    rw [List.cons_append, acceptedFrom, ih, acceptedFrom, List.append_assoc]
    rfl

/-- **A call that fits** is accepted and counted. -/
theorem Accumulates.add {c : DayCandidate} {accepted : List SourceTotal}
    (h : Accumulates c accepted)
    {e : SourceTotal} (hid : e.id.bytes ≠ [])
    (hfits : c.totalTokens.toNat + e.tokens.toNat < 2 ^ 64) :
    (vibeDayCandidateAdd c e.id e.tokens).1 = none ∧
      Accumulates (addEntry c e) (accepted ++ [e]) := by
  obtain ⟨c', hadd, hwf, hadded⟩ := vibeDayCandidateAdd_spec h.wellFormed hid hfits
  have hentry : addEntry c e = c' := by
    unfold addEntry
    rw [hadd]
  refine ⟨by rw [hadd], ?_⟩
  rw [hentry]
  refine ⟨hwf, ?_⟩
  rw [List.map_append, List.map_singleton]
  have hcounted : Added c c' (slotFor c (countedEntry e).id) (countedEntry e).tokens := hadded
  exact tallies_add h.tallies hcounted

/-- One call of a run: it fits, or it is refused and leaves the candidate as it was. -/
theorem Accumulates.addEntry {c : DayCandidate} {accepted : List SourceTotal}
    (h : Accumulates c accepted)
    {e : SourceTotal} (hid : e.id.bytes ≠ []) :
    Accumulates (VibeUsage.addEntry c e)
      (accepted ++ if (vibeDayCandidateAdd c e.id e.tokens).1 = none then [e] else []) := by
  rcases Nat.lt_or_ge (c.totalTokens.toNat + e.tokens.toNat) (2 ^ 64) with hfits | hover
  · obtain ⟨hnone, hcounts⟩ := h.add hid hfits
    rw [if_pos hnone]
    exact hcounts
  · have hadd := vibeDayCandidateAdd_overflow hid hover
    have hentry : VibeUsage.addEntry c e = c := by
      unfold VibeUsage.addEntry
      rw [hadd]
    rw [hentry, if_neg (by simp [hadd]), List.append_nil]
    exact h

/-- **A whole run** counts the calls that were accepted. -/
theorem Accumulates.addAll {c : DayCandidate} {accepted : List SourceTotal}
    (h : Accumulates c accepted)
    {calls : List SourceTotal} (hids : ∀ e ∈ calls, e.id.bytes ≠ []) :
    Accumulates (VibeUsage.addAll c calls) (accepted ++ acceptedFrom c calls) := by
  induction calls generalizing c accepted with
  | nil =>
    rw [acceptedFrom, List.append_nil]
    exact h
  | cons e calls ih =>
    have hstep := h.addEntry (hids e List.mem_cons_self)
    have hrest := ih hstep fun e' he' ↦ hids e' (List.mem_cons_of_mem _ he')
    rw [List.append_assoc] at hrest
    exact hrest

/-! ### What the slots hold -/

/-- The id has a slot of its own. -/
def DayCandidate.HasSlot (c : DayCandidate) (id : CString) : Prop :=
  id ∈ c.names ∧ id ≠ otherSourceId

instance (c : DayCandidate) (id : CString) : Decidable (c.HasSlot id) :=
  inferInstanceAs (Decidable (_ ∧ _))

/-- The sum of the tokens of some entries. -/
def tokensSum (entries : List SourceTotal) : ℕ := (entries.map fun e ↦ e.tokens.toNat).sum

/-- One more entry. -/
theorem tokensSum_snoc (entries : List SourceTotal) (e : SourceTotal) :
    tokensSum (entries ++ [e]) = tokensSum entries + e.tokens.toNat := by
  simp [tokensSum]

/-- **The total** is the sum of what has been accepted. -/
theorem Accumulates.total {c : DayCandidate} {accepted : List SourceTotal}
    (h : Accumulates c accepted) : c.totalTokens.toNat = tokensSum accepted := by
  rw [h.tallies.total, List.map_map]
  rfl

/-- A sum over some of the entries. -/
theorem sum_map_if (p : SourceTotal → Bool) (entries : List SourceTotal) :
    (entries.map fun e ↦ if p e then e.tokens.toNat else 0).sum = tokensSum (entries.filter p) := by
  unfold tokensSum
  induction entries with
  | nil => rfl
  | cons e entries ih =>
    rw [List.map_cons, List.sum_cons, ih, List.filter_cons]
    by_cases h : p e <;> simp [h]

/-- With distinct names, the tokens under a slot's name are the slot's. -/
theorem tokensOf_of_mem {c : DayCandidate} (hc : c.WellFormed) {slot : SourceTotal}
    (h : slot ∈ c.sources) : c.tokensOf slot.id = slot.tokens.toNat := by
  have hnodup := hc.nodup
  unfold DayCandidate.tokensOf
  generalize c.sources = sources at h hnodup
  induction sources with
  | nil => cases h
  | cons s sources ih =>
    rw [List.map_cons, List.nodup_cons] at hnodup
    rw [List.map_cons, List.sum_cons]
    rcases List.mem_cons.1 h with rfl | h
    · have hrest : ∀ s ∈ sources, (if s.id = slot.id then s.tokens.toNat else 0) = 0 := by
        intro s hs
        refine if_neg fun heq ↦ hnodup.1 ?_
        exact List.mem_map.2 ⟨s, hs, heq⟩
      rw [if_pos rfl, List.map_congr_left hrest]
      simp
    · have hne : s.id ≠ slot.id := fun heq ↦ hnodup.1 (List.mem_map.2 ⟨slot, h, heq.symm⟩)
      rw [if_neg hne, Nat.zero_add]
      exact ih h hnodup.2

/-- A name of a slot is an id that is kept, or the collected one. -/
theorem mem_slotNames_iff {ids : List CString} {id : CString} (h : id ≠ otherSourceId) :
    id ∈ slotNames ids ↔ id ∈ keptIds ids := by
  unfold slotNames
  split
  · exact Iff.rfl
  · simp [h]

/-- An id has a slot of its own when it is among those that are kept. -/
theorem Accumulates.hasSlot_iff {c : DayCandidate} {accepted : List SourceTotal}
    (h : Accumulates c accepted)
    {id : CString} : c.HasSlot id ↔
      countedId id ∈ keptIds (countedIds accepted) ∧
        countedId id ≠ otherSourceId := by
  unfold DayCandidate.HasSlot
  rw [h.names]
  constructor
  · rintro ⟨hmem, hne⟩
    have hname : id ∈ c.names := by
      rw [h.names]
      exact hmem
    obtain ⟨slot, hslot, rfl⟩ := List.mem_map.1 hname
    have hcounted : countedId slot.id = slot.id :=
      if_neg (not_le.2 (h.wellFormed.ids slot hslot).2)
    rw [hcounted]
    exact ⟨(mem_slotNames_iff hne).1 hmem, hne⟩
  · rintro ⟨hmem, hne⟩
    have hcounted : countedId id = id := by
      unfold countedId at hne ⊢
      split
      · rename_i hlong
        exact absurd (if_pos hlong) hne
      · rfl
    rw [hcounted] at hmem hne
    exact ⟨(mem_slotNames_iff hne).2 hmem, hne⟩

/-- The entries counted in a slot: those of its own id, and in `__other__` those of every id without
a slot of its own. -/
def CountedIn (c : DayCandidate) (slot : CString) (id : CString) : Prop :=
  (slot ≠ otherSourceId ∧ id = slot) ∨ (slot = otherSourceId ∧ ¬ c.HasSlot id)

instance (c : DayCandidate) (slot id : CString) : Decidable (CountedIn c slot id) :=
  inferInstanceAs (Decidable (_ ∨ _))

/-- An entry is counted in the slot of its id. -/
theorem Accumulates.slotOf_iff {c : DayCandidate} {accepted : List SourceTotal}
    (h : Accumulates c accepted)
    {slot id : CString} (hslot : slot ∈ c.names) :
    slot = slotOf (countedIds accepted) (countedId id) ↔
      CountedIn c slot id := by
  unfold slotOf CountedIn
  by_cases hother : slot = otherSourceId
  · rw [h.hasSlot_iff, hother]
    split
    · rename_i hkept
      have hiff : otherSourceId = countedId id ↔ ¬ countedId id ≠ otherSourceId := by
        rw [not_not, eq_comm]
      simp [hkept, hiff]
    · rename_i hkept
      simp [hkept]
  · obtain ⟨entry, hentry, hname⟩ := List.mem_map.1 hslot
    have hshort : ¬ slot.bytes.length ≥ sourceIdBytes := by
      rw [← hname]
      exact not_le.2 (h.wellFormed.ids entry hentry).2
    have hown : countedId slot = slot := if_neg hshort
    have hkept := h.hasSlot_iff.1 ⟨hslot, hother⟩
    rw [hown] at hkept
    constructor
    · intro heq
      refine Or.inl ⟨hother, ?_⟩
      split at heq
      · unfold countedId at heq
        split at heq
        · exact absurd heq hother
        · exact heq.symm
      · exact absurd heq hother
    · rintro (⟨-, rfl⟩ | ⟨heq, -⟩)
      · rw [hown, if_pos hkept.1]
      · exact absurd heq hother

/-- **What a slot holds.** -/
theorem Accumulates.slot {c : DayCandidate} {accepted : List SourceTotal}
    (h : Accumulates c accepted)
    {slot : SourceTotal} (hslot : slot ∈ c.sources) :
    slot.tokens.toNat = tokensSum (accepted.filter fun e ↦ CountedIn c slot.id e.id) := by
  have hname : slot.id ∈ c.names := List.mem_map.2 ⟨slot, hslot, rfl⟩
  rw [← tokensOf_of_mem h.wellFormed hslot, h.tallies.tokensOf, tally, List.map_map, ← sum_map_if]
  congr 1
  refine List.map_congr_left fun e _ ↦ ?_
  refine if_congr ?_ rfl rfl
  rw [decide_eq_true_eq]
  exact h.slotOf_iff hname

/-- Every accepted call is counted in a slot. -/
theorem Accumulates.covered {c : DayCandidate} {accepted : List SourceTotal}
    (h : Accumulates c accepted)
    {e : SourceTotal} (he : e ∈ accepted) : ∃ slot ∈ c.names, CountedIn c slot e.id := by
  have hin : countedId e.id ∈ countedIds accepted := mem_countedIds.2 ⟨e, he, rfl⟩
  have hmem : slotOf (countedIds accepted) (countedId e.id) ∈ c.names := by
    rw [h.names]
    by_cases hkept : countedId e.id ∈ keptIds (countedIds accepted)
    · rw [slotOf, if_pos hkept, slotNames]
      split
      · exact hkept
      · exact List.mem_append_left _ hkept
    · have hne : keptIds (countedIds accepted) ≠ (countedIds accepted).eraseDups := by
        intro heq
        rw [heq, List.mem_eraseDups] at hkept
        exact hkept hin
      rw [slotOf, if_neg hkept, slotNames]
      split
      · rename_i hor
        exact hor.resolve_left hne
      · exact List.mem_append_right _ List.mem_cons_self
  exact ⟨_, hmem, (h.slotOf_iff hmem).1 rfl⟩

/-- An id that came stays kept. -/
theorem mem_keptIds_append {ids : List CString} {id : CString} (h : id ∈ ids)
    (more : List CString) : id ∈ keptIds (ids ++ more) ↔ id ∈ keptIds ids := by
  induction more generalizing ids with
  | nil => rw [List.append_nil]
  | cons id' more ih =>
    rw [← List.singleton_append, ← List.append_assoc, ih (List.mem_append_left _ h),
      mem_keptIds_of_mem h]

/-- **Which ids get a slot of their own**: those first seen while there is room. -/
theorem Accumulates.hasSlot_iff_of_first {c d : DayCandidate} {before after : List SourceTotal}
    {e : SourceTotal} (hc : Accumulates c before) (hd : Accumulates d (before ++ e :: after))
    (hfirst : e.id ∉ before.map fun e ↦ e.id) :
    d.HasSlot e.id ↔ e.id.bytes.length < sourceIdBytes ∧ e.id ≠ otherSourceId ∧
      c.sources.length < sourceSlots - 1 := by
  rw [hd.hasSlot_iff]
  by_cases hlong : e.id.bytes.length ≥ sourceIdBytes
  · have hother : countedId e.id = otherSourceId := if_pos hlong
    simp [hother, not_lt.2 hlong]
  have hown : countedId e.id = e.id := if_neg hlong
  rw [hown]
  by_cases hne : e.id = otherSourceId
  · simp [hne]
  have hids : countedIds (before ++ e :: after) =
      (countedIds before ++ [e.id]) ++ countedIds after := by
    simp [countedIds, countedEntry, hown]
  -- An id of `before` that is this one would have been counted under its own name.
  have hnew : e.id ∉ c.names := by
    intro hmem
    rw [hc.names, mem_slotNames_iff hne] at hmem
    have hin := List.mem_eraseDups.1 (List.mem_of_mem_take hmem)
    obtain ⟨e', he', hsame⟩ := mem_countedIds.1 hin
    unfold countedId at hsame
    split at hsame
    · exact hne hsame.symm
    · exact hfirst (List.mem_map.2 ⟨e', he', hsame⟩)
  obtain ⟨hslot, -⟩ := slot_snoc hc.names e.id
  rw [hids, mem_keptIds_append (List.mem_append_right _ List.mem_cons_self)]
  unfold slotFor slotOf at hslot
  by_cases hfull : c.sources.length ≥ sourceSlots - 1
  · rw [if_pos ⟨hne, hnew, hfull⟩] at hslot
    have hnot : e.id ∉ keptIds (countedIds before ++ [e.id]) := by
      intro hkept
      rw [if_pos hkept] at hslot
      exact hne hslot.symm
    simp [hnot, not_lt.2 hfull]
  · rw [if_neg fun h ↦ hfull h.2.2] at hslot
    have hkept : e.id ∈ keptIds (countedIds before ++ [e.id]) := by
      by_contra hkept
      rw [if_neg hkept] at hslot
      exact hne hslot
    simp [hkept, hne, not_le.1 hfull, not_le.1 hlong]

/-- What a candidate holds after a run of calls, of which some were accepted. -/
structure CountsExactly (c : DayCandidate) (accepted : List SourceTotal) : Prop where
  total : c.totalTokens.toNat = tokensSum accepted
  slots : tokensSum c.sources = c.totalTokens.toNat
  distinct : c.names.Nodup
  named_le : (c.names.filter (· ≠ otherSourceId)).length ≤ sourceSlots - 1
  slot : ∀ slot ∈ c.sources,
    slot.tokens.toNat = tokensSum (accepted.filter fun e ↦ CountedIn c slot.id e.id)
  covered : ∀ e ∈ accepted, ∃ slot ∈ c.names, CountedIn c slot e.id

/-- **What has accumulated is counted exactly.** -/
theorem Accumulates.exactly {c : DayCandidate} {accepted : List SourceTotal}
    (h : Accumulates c accepted) :
    CountsExactly c accepted where
  total := h.total
  slots := h.wellFormed.sum
  distinct := h.wellFormed.nodup
  named_le := by
    have hnamed := h.wellFormed.named
    rw [filter_length_eq _ fun id ↦ decide (id ≠ otherSourceId)] at hnamed
    exact hnamed
  slot := fun _ hslot ↦ h.slot hslot
  covered := fun _ he ↦ h.covered he

/-- What the next call does: it overflows exactly when the total would, and then changes nothing. -/
structure AddExactly (c : DayCandidate) (source : CString) (tokens : UInt64) : Prop where
  overflow_iff : (vibeDayCandidateAdd c source tokens).1 = some .overflow ↔
    2 ^ 64 - 1 < c.totalTokens.toNat + tokens.toNat
  accepted_iff : (vibeDayCandidateAdd c source tokens).1 = none ↔
    c.totalTokens.toNat + tokens.toNat ≤ 2 ^ 64 - 1
  refused : (vibeDayCandidateAdd c source tokens).1 ≠ none →
    (vibeDayCandidateAdd c source tokens).2 = c

/-- One more entry is counted exactly, or is refused. -/
theorem Accumulates.addExactly {c : DayCandidate} {accepted : List SourceTotal}
    (h : Accumulates c accepted)
    {source : CString} (hsource : source.bytes ≠ []) (tokens : UInt64) :
    AddExactly c source tokens := by
  rcases Nat.lt_or_ge (c.totalTokens.toNat + tokens.toNat) (2 ^ 64) with hfits | hover
  · obtain ⟨hnone, -⟩ := h.add (e := ⟨source, tokens⟩) hsource hfits
    have hnone : (vibeDayCandidateAdd c source tokens).1 = none := hnone
    exact ⟨by simp [hnone]; omega, by simp [hnone]; omega, fun hne ↦ absurd hnone hne⟩
  · have hadd := vibeDayCandidateAdd_overflow hsource hover
    exact ⟨by simp [hadd]; omega, by simp [hadd]; omega, fun _ ↦ by rw [hadd]⟩

/-- **Candidate aggregation is exact**, after any calls from `vibe_day_candidate_init` on. -/
theorem vibeDayCandidateAdd_exact (dateKey : Int32) (calls : List SourceTotal)
    (hids : ∀ e ∈ calls, e.id.bytes ≠ []) :
    CountsExactly (addAll (vibeDayCandidateInit dateKey) calls)
      (acceptedFrom (vibeDayCandidateInit dateKey) calls) ∧
    (∀ source tokens, source.bytes ≠ [] →
      AddExactly (addAll (vibeDayCandidateInit dateKey) calls) source tokens) ∧
    (∀ before e after, calls = before ++ e :: after →
      e.id ∉ (acceptedFrom (vibeDayCandidateInit dateKey) before).map (fun e ↦ e.id) →
      (vibeDayCandidateAdd (addAll (vibeDayCandidateInit dateKey) before) e.id e.tokens).1 = none →
      ((addAll (vibeDayCandidateInit dateKey) calls).HasSlot e.id ↔
        e.id.bytes.length < sourceIdBytes ∧ e.id ≠ otherSourceId ∧
          (addAll (vibeDayCandidateInit dateKey) before).sources.length < sourceSlots - 1)) := by
  have hall := (accumulates_init dateKey).addAll hids
  rw [List.nil_append] at hall
  refine ⟨hall.exactly, fun source tokens hsource ↦ hall.addExactly hsource tokens, ?_⟩
  rintro before e after rfl hfirst hnone
  have hbefore := (accumulates_init dateKey).addAll fun e' he' ↦
    hids e' (List.mem_append_left _ he')
  rw [List.nil_append] at hbefore
  rw [acceptedFrom_append, acceptedFrom, if_pos hnone, List.singleton_append] at hall
  exact hbefore.hasSlot_iff_of_first hall hfirst

/-- Two calls, the second of which does not fit. -/
theorem vibeDayCandidateAdd_exact_sample :
    CountsExactly (addAll (vibeDayCandidateInit 20260101)
      [⟨.ofBytes [0x61], 5⟩, ⟨.ofBytes [0x62], uint64Max⟩])
      (acceptedFrom (vibeDayCandidateInit 20260101)
        [⟨.ofBytes [0x61], 5⟩, ⟨.ofBytes [0x62], uint64Max⟩]) :=
  (vibeDayCandidateAdd_exact 20260101 [⟨.ofBytes [0x61], 5⟩, ⟨.ofBytes [0x62], uint64Max⟩]
    (by decide)).1

/-! ### Whether ids were merged -/

/-- The candidate with another `sources_collapsed`. -/
def DayCandidate.withCollapsed (c : DayCandidate) (collapsed : Bool) : DayCandidate :=
  { c with sourcesCollapsed := collapsed }

/-- A new id finds no slot of its own. -/
def Merges (c : DayCandidate) (id : CString) : Prop :=
  id ≠ otherSourceId ∧ id ∉ c.names ∧ c.sources.length ≥ sourceSlots - 1

instance (c : DayCandidate) (id : CString) : Decidable (Merges c id) :=
  inferInstanceAs (Decidable (_ ∧ _))

/-- The flag does not matter to a slot. -/
theorem addToSlot_withCollapsed (c : DayCandidate) (index : ℕ) (tokens : UInt64)
    (collapsed : Bool) : addToSlot (c.withCollapsed collapsed) index tokens =
      ((addToSlot c index tokens).1, (addToSlot c index tokens).2.withCollapsed collapsed) := by
  have hsources : (c.withCollapsed collapsed).sources = c.sources := rfl
  unfold addToSlot
  rw [hsources]
  cases c.sources[index]? with
  | none => rfl
  | some slot =>
    dsimp only
    split <;> rfl

/-- The flag decides nothing; a merged id sets it. -/
theorem addNormalized_withCollapsed (c : DayCandidate) (id : CString) (tokens : UInt64)
    (collapsed : Bool) : addNormalized (c.withCollapsed collapsed) id tokens =
      ((addNormalized c id tokens).1, (addNormalized c id tokens).2.withCollapsed
        (collapsed || decide (Merges c id))) := by
  have hsources : (c.withCollapsed collapsed).sources = c.sources := rfl
  unfold addNormalized
  rw [hsources]
  dsimp only
  by_cases hfound : findSource c.sources id < c.sources.length
  · have hmerges : ¬ Merges c id := fun h ↦ h.2.1 (findSource_lt_iff.1 hfound)
    rw [if_pos hfound, if_pos hfound, addToSlot_withCollapsed]
    simp [hmerges]
  · have hnew : id ∉ c.names := mt findSource_lt_iff.2 hfound
    rw [if_neg hfound, if_neg hfound]
    by_cases hfull : id ≠ otherSourceId ∧ c.sources.length ≥ sourceSlots - 1
    · have hmerges : Merges c id := ⟨hfull.1, hnew, hfull.2⟩
      simp only [hfull.1, hfull.2, hmerges, ne_eq, not_false_eq_true, and_self, if_true,
        decide_true, Bool.or_true]
      split
      · exact addToSlot_withCollapsed { c with sourcesCollapsed := true } _ tokens true
      · split
        · rfl
        · exact addToSlot_withCollapsed
            { c with sourcesCollapsed := true, sources := c.sources ++ [_] } _ tokens true
    · have hmerges : ¬ Merges c id := fun h ↦ hfull ⟨h.1, h.2.2⟩
      simp only [hfull, hmerges, hsources, hfound, if_false, decide_false, Bool.or_false]
      split
      · rfl
      · exact addToSlot_withCollapsed { c with sources := c.sources ++ [_] } _ tokens collapsed

/-- The flag is the only thing that an over-long source changes beyond `__other__`. -/
theorem vibeDayCandidateAdd_withCollapsed {c : DayCandidate} {source : CString} {tokens : UInt64}
    (hsource : source.bytes ≠ []) (hfits : c.totalTokens.toNat + tokens.toNat < 2 ^ 64)
    (collapsed : Bool) : vibeDayCandidateAdd (c.withCollapsed collapsed) source tokens =
      ((vibeDayCandidateAdd c (countedId source) tokens).1,
        (vibeDayCandidateAdd c (countedId source) tokens).2.withCollapsed
          (collapsed || decide (source.bytes.length ≥ sourceIdBytes) ||
            decide (Merges c (countedId source)))) := by
  have hguard : ¬ uint64Max - c.totalTokens < tokens := by
    rw [uint64Max_sub_lt_iff]
    omega
  have hiff : source.boundedStrlen sourceIdBytes ≥ sourceIdBytes ↔
      source.bytes.length ≥ sourceIdBytes := by
    unfold CString.boundedStrlen
    omega
  -- An id that is short enough is added as it is.
  have hbase : ∀ {id : CString}, id.bytes ≠ [] → ¬ id.bytes.length ≥ sourceIdBytes →
      vibeDayCandidateAdd c id tokens = addNormalized c id tokens := by
    intro id hid hlen
    have hbound : ¬ id.boundedStrlen sourceIdBytes ≥ sourceIdBytes := by
      unfold CString.boundedStrlen
      omega
    unfold vibeDayCandidateAdd
    rw [if_neg hid, if_neg hguard]
    simp only [hbound, if_false]
  have hleft : vibeDayCandidateAdd (c.withCollapsed collapsed) source tokens = addNormalized
      (c.withCollapsed (collapsed || decide (source.bytes.length ≥ sourceIdBytes)))
      (countedId source) tokens := by
    have htotal : (c.withCollapsed collapsed).totalTokens = c.totalTokens := rfl
    unfold vibeDayCandidateAdd countedId
    rw [if_neg hsource, htotal, if_neg hguard]
    dsimp only
    by_cases hlong : source.bytes.length ≥ sourceIdBytes
    · simp only [hiff.2 hlong, hlong, if_true, decide_true, Bool.or_true]
      rfl
    · simp only [mt hiff.1 hlong, hlong, if_false, decide_false, Bool.or_false]
  have hcounted : (countedId source).bytes ≠ [] ∧
      ¬ (countedId source).bytes.length ≥ sourceIdBytes := by
    unfold countedId
    split
    · decide
    · exact ⟨hsource, ‹_›⟩
  rw [hleft, addNormalized_withCollapsed, hbase hcounted.1 hcounted.2]

/-- The source has to be counted under `__other__` for its length. -/
def TooLong (id : CString) : Prop := id.bytes.length ≥ sourceIdBytes

instance (id : CString) : Decidable (TooLong id) := inferInstanceAs (Decidable (_ ≥ _))

/-- What is counted under is not too long. -/
theorem not_tooLong_countedId (id : CString) : ¬ TooLong (countedId id) := by
  unfold TooLong countedId
  split
  · decide
  · assumption

/-- It is counted under itself. -/
theorem countedId_countedId (id : CString) : countedId (countedId id) = countedId id :=
  if_neg (not_tooLong_countedId id)

/-- It is not empty. -/
theorem countedId_ne_nil {id : CString} (h : id.bytes ≠ []) : (countedId id).bytes ≠ [] := by
  unfold countedId
  split
  · decide
  · exact h

/-- What adding the id that is counted does to the flag. -/
theorem collapsed_addEntry {c : DayCandidate} {e : SourceTotal} (hid : e.id.bytes ≠ [])
    (hfits : c.totalTokens.toNat + e.tokens.toNat < 2 ^ 64) :
    (addEntry c (countedEntry e)).sourcesCollapsed =
      (c.sourcesCollapsed || decide (Merges c (countedId e.id))) := by
  have h := vibeDayCandidateAdd_withCollapsed (countedId_ne_nil hid) hfits c.sourcesCollapsed
  rw [countedId_countedId] at h
  have hflag := congrArg (fun r ↦ r.2.sourcesCollapsed) h
  have hshort : decide ((countedId e.id).bytes.length ≥ sourceIdBytes) = false :=
    decide_eq_false (not_tooLong_countedId e.id)
  rw [hshort, Bool.or_false] at hflag
  exact hflag

/-- **Adding the sources and adding the counted ids** differ in the flag only, and there by the
sources that are too long. -/
theorem addAll_countedEntry {calls : List SourceTotal} : ∀ {c : DayCandidate}
    {accepted : List SourceTotal}, Accumulates c accepted → (∀ e ∈ calls, e.id.bytes ≠ []) →
    c.totalTokens.toNat + tokensSum calls < 2 ^ 64 → ∀ collapsed : Bool,
      addAll (c.withCollapsed (c.sourcesCollapsed || collapsed)) calls =
        (addAll c (calls.map countedEntry)).withCollapsed
          ((addAll c (calls.map countedEntry)).sourcesCollapsed ||
            (collapsed || calls.any fun e ↦ decide (TooLong e.id))) := by
  induction calls with
  | nil =>
    intro c accepted _ _ _ collapsed
    simp [addAll]
  | cons e calls ih =>
    intro c accepted hc hids hfits collapsed
    have hid := hids e List.mem_cons_self
    have hsum : tokensSum (e :: calls) = e.tokens.toNat + tokensSum calls := List.sum_cons
    have hfit : c.totalTokens.toNat + e.tokens.toNat < 2 ^ 64 := by omega
    -- One source: the same slot is used, and the flag is set when it is too long.
    have hstep : addEntry (c.withCollapsed (c.sourcesCollapsed || collapsed)) e =
        (addEntry c (countedEntry e)).withCollapsed
          ((addEntry c (countedEntry e)).sourcesCollapsed ||
            (collapsed || decide (TooLong e.id))) := by
      rw [collapsed_addEntry hid hfit]
      unfold addEntry
      rw [vibeDayCandidateAdd_withCollapsed hid hfit]
      show DayCandidate.withCollapsed _ _ = DayCandidate.withCollapsed _ _
      congr 1
      unfold TooLong
      cases c.sourcesCollapsed <;> cases collapsed <;> simp [Bool.or_comm]
    obtain ⟨-, hcounted⟩ := hc.add (e := countedEntry e) (countedId_ne_nil hid) hfit
    have htotal : (addEntry c (countedEntry e)).totalTokens.toNat =
        c.totalTokens.toNat + e.tokens.toNat := by
      rw [hcounted.total, tokensSum_snoc, ← hc.total]
      rfl
    have hrest := ih hcounted (fun e' he' ↦ hids e' (List.mem_cons_of_mem _ he'))
      (by rw [htotal]; omega) (collapsed || decide (TooLong e.id))
    have hfirst : ∀ d : DayCandidate, addAll d (e :: calls) = addAll (addEntry d e) calls :=
      fun _ ↦ rfl
    have hfirst' : addAll c ((e :: calls).map countedEntry) =
        addAll (addEntry c (countedEntry e)) (calls.map countedEntry) := rfl
    rw [hfirst, hstep, hrest, hfirst', List.any_cons, Bool.or_assoc]

/-- Merging, in terms of the ids so far. -/
theorem merges_iff {c : DayCandidate} {ids : List CString} (hc : c.names = slotNames ids)
    (id : CString) : Merges c id ↔ id ≠ otherSourceId ∧ id ∉ keptIds (ids ++ [id]) := by
  obtain ⟨hslot, -⟩ := slot_snoc hc id
  unfold slotFor slotOf at hslot
  unfold Merges
  by_cases hother : id = otherSourceId
  · simp [hother]
  by_cases hkept : id ∈ keptIds (ids ++ [id])
  · rw [if_pos hkept] at hslot
    have hnot : ¬ (id ≠ otherSourceId ∧ id ∉ c.names ∧ c.sources.length ≥ sourceSlots - 1) := by
      intro h
      rw [if_pos h] at hslot
      exact hother hslot.symm
    exact ⟨fun h ↦ absurd h hnot, fun h ↦ absurd hkept h.2⟩
  · rw [if_neg hkept] at hslot
    have hall : id ≠ otherSourceId ∧ id ∉ c.names ∧ c.sources.length ≥ sourceSlots - 1 := by
      by_contra h
      rw [if_neg h] at hslot
      exact hother hslot
    exact ⟨fun h ↦ ⟨h.1, hkept⟩, fun _ ↦ hall⟩

/-- Some id has no slot of its own because the slots were used up. -/
def RunsOut (ids : List CString) : Prop :=
  ∃ id ∈ ids, id ≠ otherSourceId ∧ id ∉ keptIds ids

/-- The slots run out with an id that finds none. -/
theorem runsOut_snoc {ids : List CString} {id : CString} : RunsOut (ids ++ [id]) ↔
    RunsOut ids ∨ (id ≠ otherSourceId ∧ id ∉ keptIds (ids ++ [id])) := by
  unfold RunsOut
  constructor
  · rintro ⟨id', hmem, hother, hkept⟩
    rcases List.mem_append.1 hmem with hmem | hmem
    · exact Or.inl ⟨id', hmem, hother, mt (mem_keptIds_of_mem hmem).2 hkept⟩
    · obtain rfl := List.mem_singleton.1 hmem
      exact Or.inr ⟨hother, hkept⟩
  · rintro (⟨id', hmem, hother, hkept⟩ | ⟨hother, hkept⟩)
    · exact ⟨id', List.mem_append_left _ hmem, hother, mt (mem_keptIds_of_mem hmem).1 hkept⟩
    · exact ⟨id, List.mem_append_right _ (List.mem_singleton_self id), hother, hkept⟩

/-- **The flag after a run of counted ids.** -/
theorem collapsed_addAll {calls : List SourceTotal} : ∀ {c : DayCandidate}
    {accepted : List SourceTotal}, Accumulates c accepted → (∀ e ∈ calls, e.id.bytes ≠ []) →
    c.totalTokens.toNat + tokensSum calls < 2 ^ 64 →
    (c.sourcesCollapsed = true ↔ RunsOut (countedIds accepted)) →
      ((addAll c (calls.map countedEntry)).sourcesCollapsed = true ↔
        RunsOut (countedIds (accepted ++ calls))) := by
  induction calls with
  | nil =>
    intro c accepted _ _ _ hflag
    rw [List.append_nil]
    exact hflag
  | cons e calls ih =>
    intro c accepted hc hids hfits hflag
    have hid := hids e List.mem_cons_self
    have hsum : tokensSum (e :: calls) = e.tokens.toNat + tokensSum calls := List.sum_cons
    have hfit : c.totalTokens.toNat + e.tokens.toNat < 2 ^ 64 := by omega
    obtain ⟨-, hcounted⟩ := hc.add (e := countedEntry e) (countedId_ne_nil hid) hfit
    have hids' : countedIds (accepted ++ [countedEntry e]) =
        countedIds accepted ++ [countedId e.id] := by
      simp [countedIds, countedEntry, countedId_countedId]
    have htotal : (addEntry c (countedEntry e)).totalTokens.toNat =
        c.totalTokens.toNat + e.tokens.toNat := by
      rw [hcounted.total, tokensSum_snoc, ← hc.total]
      rfl
    have hflag' : (addEntry c (countedEntry e)).sourcesCollapsed = true ↔
        RunsOut (countedIds (accepted ++ [countedEntry e])) := by
      rw [collapsed_addEntry hid hfit, hids', runsOut_snoc, ← merges_iff hc.names, ← hflag]
      simp
    have hrest := ih hcounted (fun e' he' ↦ hids e' (List.mem_cons_of_mem _ he'))
      (by rw [htotal]; omega) hflag'
    have hsame : countedIds (accepted ++ [countedEntry e] ++ calls) =
        countedIds (accepted ++ e :: calls) := by
      simp [countedIds, countedEntry, countedId_countedId]
    rw [hsame] at hrest
    exact hrest

end VibeUsage
