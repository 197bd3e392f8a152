import Mathlib
import VibeUsage.Usage

/-!
# Aggregating a day's buckets by source

`vibe_aggregate.c`. The `source_count` slots in use are a list, so the count is its length. A failed
call still returns the candidate it leaves behind, as the C function mutates its argument.

* `vibeDayCandidateAdd` is the function of the source with its five ways to fail; what it comes to
  over a run of calls is in `Candidate` and `Tally`.
* `vibeBasisPointsNarrow_exact` says that the share of a source, computed without a type of 128
  bits, is the quotient rounded down: the loop keeps a remainder below the denominator
  (`BasisPointsInv`), so that no step wraps.
-/

namespace VibeUsage

/-- A `vibe_source_total_t`. -/
structure SourceTotal where
  id : CString
  tokens : UInt64
  deriving DecidableEq

/-- A `vibe_day_candidate_t`, with the slots in use as a list. -/
structure DayCandidate where
  dateKey : Int32
  totalTokens : UInt64
  sources : List SourceTotal
  bucketCount : UInt32
  hasAnyData : Bool
  sourcesCollapsed : Bool
  deriving DecidableEq

def vibeDayCandidateInit (dateKey : Int32) : DayCandidate where
  dateKey := dateKey
  totalTokens := 0
  sources := []
  bucketCount := 0
  hasAnyData := false
  sourcesCollapsed := false

/-- The index of a source among the slots in use, or their number when it has none. -/
def findSource (sources : List SourceTotal) (id : CString) : ℕ :=
  sources.findIdx fun slot ↦ decide (slot.id = id)

/-- The last lines of `vibe_day_candidate_add`: one more bucket for the slot at `index`. -/
def addToSlot (candidate : DayCandidate) (index : ℕ) (totalTokens : UInt64) :
    Option VibeError × DayCandidate :=
  match candidate.sources[index]? with
  | none => (some .overflow, candidate)
  | some slot =>
    if uint64Max - slot.tokens < totalTokens then (some .overflow, candidate)
    else (none,
      { candidate with
        sources := candidate.sources.set index { slot with tokens := slot.tokens + totalTokens }
        totalTokens := candidate.totalTokens + totalTokens
        bucketCount := candidate.bucketCount + 1 })

/-- The slot that receives `normalized`: an existing one, `__other__` when the named slots are used
up, or a new one. -/
def addNormalized (candidate : DayCandidate) (normalized : CString) (totalTokens : UInt64) :
    Option VibeError × DayCandidate :=
  let index := findSource candidate.sources normalized
  if index < candidate.sources.length then addToSlot candidate index totalTokens
  else
    let full := normalized ≠ otherSourceId ∧ candidate.sources.length ≥ sourceSlots - 1
    let normalized := if full then otherSourceId else normalized
    let candidate := if full then { candidate with sourcesCollapsed := true } else candidate
    let index := if full then findSource candidate.sources normalized else index
    if index < candidate.sources.length then addToSlot candidate index totalTokens
    else if candidate.sources.length ≥ sourceSlots then (some .overflow, candidate)
    else
      let slot := ⟨normalized.strncpy (sourceIdBytes - 1), 0⟩
      addToSlot { candidate with sources := candidate.sources ++ [slot] } index totalTokens

def vibeDayCandidateAdd (candidate : DayCandidate) (source : CString) (totalTokens : UInt64) :
    Option VibeError × DayCandidate :=
  if source.bytes = [] then (some .invalidArgument, candidate)
  else if uint64Max - candidate.totalTokens < totalTokens then (some .overflow, candidate)
  else
    let tooLong := source.boundedStrlen sourceIdBytes ≥ sourceIdBytes
    let normalized := if tooLong then otherSourceId else source
    let candidate := if tooLong then { candidate with sourcesCollapsed := true } else candidate
    addNormalized candidate normalized totalTokens

/-- The share of `part` in `total` in basis points, by a product of 128 bits. -/
def vibeBasisPoints (part total : UInt64) : UInt16 :=
  if total = 0 ∨ part = 0 then 0
  else if part ≥ total then 10000
  else UInt16.ofNat (part.toNat * 10000 / total.toNat)

/-- The loop that replaces the product where there is no type of 128 bits. -/
def basisPointsLoop (part total : UInt64) :
    (iterations : ℕ) → (remainder : UInt64) → (quotient : UInt16) → UInt16
  | 0, _, quotient => quotient
  | iterations + 1, remainder, quotient =>
    if remainder ≥ total - part then
      basisPointsLoop part total iterations (remainder - (total - part)) (quotient + 1)
    else basisPointsLoop part total iterations (remainder + part) quotient

/-- `vibe_basis_points` without a type of 128 bits. -/
def vibeBasisPointsNarrow (part total : UInt64) : UInt16 :=
  if total = 0 ∨ part = 0 then 0
  else if part ≥ total then 10000
  else basisPointsLoop part total 10000 0 0

/-! ### The loop, step by step -/

/-- One iteration of the loop, on its remainder and its quotient. -/
def basisPointsStep (part total : UInt64) (state : UInt64 × UInt16) : UInt64 × UInt16 :=
  if state.1 ≥ total - part then (state.1 - (total - part), state.2 + 1)
  else (state.1 + part, state.2)

/-- The loop is its iterations, one after the other. -/
theorem basisPointsLoop_eq_iterate (part total : UInt64) (iterations : ℕ)
    (state : UInt64 × UInt16) :
    basisPointsLoop part total iterations state.1 state.2 =
      ((basisPointsStep part total)^[iterations] state).2 := by
  induction iterations generalizing state with
  | zero => rfl
  | succ iterations ih =>
    rw [Function.iterate_succ_apply, ← ih, basisPointsLoop, basisPointsStep]
    split <;> rfl

/-- What the next iteration computes is what it would be in whole numbers. -/
structure BasisPointsExact (part total remainder : UInt64) (quotient : UInt16) : Prop where
  threshold : (total - part).toNat + part.toNat = total.toNat
  difference : remainder ≥ total - part →
    (remainder - (total - part)).toNat + (total - part).toNat = remainder.toNat
  increment : remainder ≥ total - part → (quotient + 1).toNat = quotient.toNat + 1
  sum : remainder < total - part → (remainder + part).toNat = remainder.toNat + part.toNat

/-- The invariant of the loop: after `done` iterations, quotient and remainder divide as many times
`part`, and the quotient counts iterations. -/
structure BasisPointsInv (part total : UInt64) (done : ℕ) (remainder : UInt64)
    (quotient : UInt16) : Prop where
  division : done * part.toNat = quotient.toNat * total.toNat + remainder.toNat
  remainder_lt : remainder < total
  quotient_le : quotient.toNat ≤ done

/-- At the end the quotient is that of the division. -/
theorem BasisPointsInv.exact {part total remainder : UInt64} {done : ℕ} {quotient : UInt16}
    (hinv : BasisPointsInv part total done remainder quotient) (hlt : part < total)
    (hdone : done < 10000) : BasisPointsExact part total remainder quotient := by
  have hpart : part.toNat < total.toNat := hlt
  have hrem : remainder.toNat < total.toNat := hinv.remainder_lt
  have hq := hinv.quotient_le
  have htotal := total.toNat_lt
  have hsub : (total - part).toNat = total.toNat - part.toNat :=
    UInt64.toNat_sub_of_le _ _ (Nat.le_of_lt hpart)
  refine ⟨by omega, fun hge ↦ ?_, fun _ ↦ ?_, fun hless ↦ ?_⟩
  · rw [UInt64.toNat_sub_of_le _ _ hge]
    exact Nat.sub_add_cancel hge
  · rw [UInt16.toNat_add, UInt16.toNat_one, Nat.mod_eq_of_lt (by omega)]
  · have hless : remainder.toNat < (total - part).toNat := hless
    exact UInt64.toNat_add_of_lt (by omega)

/-- **One iteration keeps the invariant.** -/
theorem BasisPointsInv.step {part total : UInt64} {done : ℕ} {state : UInt64 × UInt16}
    (hinv : BasisPointsInv part total done state.1 state.2) (hlt : part < total)
    (hdone : done < 10000) :
    BasisPointsInv part total (done + 1) (basisPointsStep part total state).1
      (basisPointsStep part total state).2 := by
  have hpart : part.toNat < total.toNat := hlt
  have hrem : state.1.toNat < total.toNat := hinv.remainder_lt
  have hexact := hinv.exact hlt hdone
  have hthreshold := hexact.threshold
  have hq := hinv.quotient_le
  unfold basisPointsStep
  split
  · rename_i hge
    have hdiff := hexact.difference hge
    have hinc := hexact.increment hge
    have hlast : (state.1 - (total - part)).toNat < total.toNat := by omega
    refine ⟨?_, hlast, ?_⟩
    · dsimp only
      rw [Nat.succ_mul, hinv.division, hinc, Nat.succ_mul]
      omega
    · dsimp only
      omega
  · rename_i hge
    have hsum := hexact.sum (UInt64.not_le.1 hge)
    have hless : state.1.toNat < (total - part).toNat := UInt64.not_le.1 hge
    have hlast : (state.1 + part).toNat < total.toNat := by omega
    refine ⟨?_, hlast, Nat.le_succ_of_le hq⟩
    dsimp only
    rw [Nat.succ_mul, hinv.division, hsum]
    omega

/-- **Every iteration keeps the invariant.** -/
theorem basisPointsInv_iterate {part total : UInt64} (hlt : part < total) :
    ∀ {done : ℕ}, done ≤ 10000 →
      BasisPointsInv part total done ((basisPointsStep part total)^[done] (0, 0)).1
        ((basisPointsStep part total)^[done] (0, 0)).2
  | 0, _ => ⟨by simp, Nat.zero_lt_of_lt hlt, by simp⟩
  | done + 1, h => by
    rw [Function.iterate_succ_apply']
    exact (basisPointsInv_iterate hlt (Nat.le_of_succ_le h)).step hlt h

/-- The share, rounded down, is at most the whole. -/
theorem vibeBasisPoints_toNat (part total : UInt64) :
    (vibeBasisPoints part total).toNat = min (10000 * part.toNat / total.toNat) 10000 := by
  unfold vibeBasisPoints
  split
  · rename_i h
    rcases h with rfl | rfl <;> simp
  rename_i h
  have htotal : 0 < total.toNat :=
    Nat.pos_of_ne_zero fun h' ↦ h (Or.inl (UInt64.toNat_inj.1 h'))
  split
  · rename_i hge
    have hge : total.toNat ≤ part.toNat := hge
    rw [Nat.min_eq_right]
    · rfl
    · rw [Nat.le_div_iff_mul_le htotal]
      omega
  · rename_i hge
    have hlt : part.toNat < total.toNat := UInt64.not_le.1 hge
    have hquotient : part.toNat * 10000 / total.toNat < 10000 := by
      rw [Nat.div_lt_iff_lt_mul htotal]
      omega
    rw [UInt16.toNat_ofNat_of_lt' (Nat.lt_trans hquotient (by decide)), Nat.mul_comm,
      Nat.min_eq_left (Nat.le_of_lt (Nat.mul_comm _ _ ▸ hquotient))]

/-- The share of a part of the total. -/
theorem vibeBasisPoints_of_le {part total : UInt64} (h : part.toNat ≤ total.toNat) :
    (vibeBasisPoints part total).toNat = 10000 * part.toNat / total.toNat := by
  rw [vibeBasisPoints_toNat, Nat.min_eq_left]
  exact Nat.div_le_of_le_mul (by rw [Nat.mul_comm]; exact Nat.mul_le_mul_right _ h)

/-- **The two branches agree.** -/
theorem vibeBasisPointsNarrow_eq (part total : UInt64) :
    vibeBasisPointsNarrow part total = vibeBasisPoints part total := by
  unfold vibeBasisPointsNarrow vibeBasisPoints
  split
  · rfl
  split
  · rfl
  rename_i hge
  have hlt : part < total := UInt64.not_le.1 hge
  have hlt' : part.toNat < total.toNat := hlt
  have hinv := basisPointsInv_iterate hlt (le_refl 10000)
  have hloop := basisPointsLoop_eq_iterate part total 10000 (0, 0)
  generalize (basisPointsStep part total)^[10000] (0, 0) = last at hinv hloop
  have hrem : last.1.toNat < total.toNat := hinv.remainder_lt
  have hquotient : part.toNat * 10000 / total.toNat < 2 ^ 16 := by
    rw [Nat.div_lt_iff_lt_mul (by omega)]
    omega
  apply UInt16.toNat_inj.1
  rw [hloop, UInt16.toNat_ofNat_of_lt' hquotient, Nat.mul_comm, hinv.division,
    Nat.mul_comm _ total.toNat, Nat.mul_add_div (by omega), Nat.div_eq_of_lt hrem, Nat.add_zero]

/-- **The share without a type of 128 bits.** It is the share with one, it is the quotient rounded
down, and no iteration of the loop wraps. -/
theorem vibeBasisPointsNarrow_exact (part total : UInt64) :
    vibeBasisPointsNarrow part total = vibeBasisPoints part total ∧
      (part = 0 ∨ total = 0 → vibeBasisPointsNarrow part total = 0) ∧
      (part ≠ 0 → total ≠ 0 → total ≤ part → vibeBasisPointsNarrow part total = 10000) ∧
      (part < total →
        (vibeBasisPointsNarrow part total).toNat = 10000 * part.toNat / total.toNat) ∧
      (part < total → ∀ done < 10000, BasisPointsExact part total
        ((basisPointsStep part total)^[done] (0, 0)).1
        ((basisPointsStep part total)^[done] (0, 0)).2) ∧
      (part ≠ 0 → part < total → vibeBasisPointsNarrow part total =
        ((basisPointsStep part total)^[10000] (0, 0)).2) := by
  refine ⟨vibeBasisPointsNarrow_eq part total, fun hzero ↦ ?_, fun hpart htotal hle ↦ ?_,
    fun hlt ↦ ?_, fun hlt done hdone ↦ ?_, fun hpart hlt ↦ ?_⟩
  · unfold vibeBasisPointsNarrow
    rw [if_pos hzero.symm]
  · unfold vibeBasisPointsNarrow
    rw [if_neg (not_or.2 ⟨htotal, hpart⟩), if_pos hle]
  · rw [vibeBasisPointsNarrow_eq, vibeBasisPoints_of_le (Nat.le_of_lt hlt)]
  · exact (basisPointsInv_iterate hlt (Nat.le_of_lt hdone)).exact hlt hdone
  · have htotal : total ≠ 0 := by
      rintro rfl
      exact absurd hlt (UInt64.not_lt.2 (Nat.zero_le _))
    unfold vibeBasisPointsNarrow
    rw [if_neg (not_or.2 ⟨htotal, hpart⟩), if_neg (UInt64.not_le.2 hlt)]
    exact basisPointsLoop_eq_iterate part total 10000 (0, 0)

end VibeUsage
