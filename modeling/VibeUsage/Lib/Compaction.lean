import Mathlib

/-!
# Compaction in place

A loop that drops entries of an array without a second array: one index reads every entry, the other
writes the ones that are kept. The writing index never overtakes the reading one, so what is still
to be read is as it was (`compact_getElem?_of_le`), and what has been written is the kept part of
what has been read (`take_compact`).

`keep` may be any predicate; `compact_congr` says that only its values on the entries matter.
-/

namespace Compaction

variable {α : Type*} {n : ℕ}

/-- The entries and the writing index after the first `read` entries. -/
def compact (keep : α → Bool) (items : Vector α n) : ℕ → Vector α n × ℕ
  | 0 => (items, 0)
  | read + 1 =>
    let (items, write) := compact keep items read
    match items[read]? with
    | none => (items, write)
    | some item =>
      if keep item then
        (if write ≠ read then items.setIfInBounds write item else items, write + 1)
      else (items, write)

variable {keep : α → Bool} {items : Vector α n}

/-- An entry that is kept goes to the writing index, wherever that is. -/
theorem compact_succ_of_keep {read : ℕ} {item : α}
    (h : (compact keep items read).1[read]? = some item) (hkeep : keep item = true) :
    compact keep items (read + 1) =
      ((compact keep items read).1.setIfInBounds (compact keep items read).2 item,
        (compact keep items read).2 + 1) := by
  rw [compact]
  dsimp only
  rw [h]
  dsimp only
  rw [if_pos hkeep]
  split
  · rfl
  · -- the entry is where it belongs already
    rename_i hsame
    rw [not_not] at hsame
    obtain ⟨hlt, hitem⟩ := Vector.getElem?_eq_some_iff.1 h
    have hset :
        (compact keep items read).1.setIfInBounds read item = (compact keep items read).1 := by
      rw [← hitem]
      exact Vector.ext fun i hi ↦ by
        rw [Vector.getElem_setIfInBounds hi]
        split
        · subst_vars
          rfl
        · rfl
    rw [hsame, hset]

/-- An entry that is dropped changes nothing. -/
theorem compact_succ_of_drop {read : ℕ} {item : α}
    (h : (compact keep items read).1[read]? = some item) (hdrop : ¬ keep item = true) :
    compact keep items (read + 1) = compact keep items read := by
  rw [compact]
  dsimp only
  rw [h]
  exact if_neg hdrop

/-- Behind the end nothing is read. -/
theorem compact_succ_of_end {read : ℕ} (h : (compact keep items read).1[read]? = none) :
    compact keep items (read + 1) = compact keep items read := by
  rw [compact]
  dsimp only
  rw [h]

/-- **The writing index never overtakes the reading one.** -/
theorem compact_write_le (read : ℕ) : (compact keep items read).2 ≤ read := by
  induction read with
  | zero => exact le_rfl
  | succ read ih =>
    cases hitem : (compact keep items read).1[read]? with
    | none => rw [compact_succ_of_end hitem]; exact Nat.le_succ_of_le ih
    | some item =>
      by_cases hkeep : keep item = true
      · rw [compact_succ_of_keep hitem hkeep]
        exact Nat.succ_le_succ ih
      · rw [compact_succ_of_drop hitem hkeep]
        exact Nat.le_succ_of_le ih

/-- **When nothing was dropped, nothing was moved.** -/
theorem compact_of_write_eq {read : ℕ} (h : (compact keep items read).2 = read) :
    (compact keep items read).1 = items := by
  induction read with
  | zero => rfl
  | succ read ih =>
    have hle : (compact keep items read).2 ≤ read := compact_write_le read
    rw [compact] at h ⊢
    dsimp only at h ⊢
    split at h
    · dsimp only at h
      omega
    · rename_i item hitem
      by_cases hkeep : keep item = true
      · rw [if_pos hkeep] at h
        have hwrite : (compact keep items read).2 = read := Nat.succ.inj h
        rw [if_pos hkeep, if_neg (not_not.2 hwrite)]
        exact ih hwrite
      · rw [if_neg hkeep] at h
        dsimp only at h
        omega

/-- **What is still to be read is as it was.** -/
theorem compact_getElem?_of_le {read i : ℕ} (h : read ≤ i) :
    (compact keep items read).1[i]? = items[i]? := by
  induction read with
  | zero => rfl
  | succ read ih =>
    have hi := ih (Nat.le_of_succ_le h)
    cases hitem : (compact keep items read).1[read]? with
    | none => rw [compact_succ_of_end hitem, hi]
    | some item =>
      by_cases hkeep : keep item = true
      · have hwrite : (compact keep items read).2 ≠ i :=
          Nat.ne_of_lt (Nat.lt_of_le_of_lt (compact_write_le read) h)
        rw [compact_succ_of_keep hitem hkeep]
        dsimp only
        rw [Vector.getElem?_setIfInBounds_ne hwrite, hi]
      · rw [compact_succ_of_drop hitem hkeep, hi]

/-- **What has been written is the kept part of what has been read.** -/
theorem take_compact (read : ℕ) :
    (compact keep items read).1.toList.take (compact keep items read).2 =
      (items.toList.take read).filter keep := by
  induction read with
  | zero => rfl
  | succ read ih =>
    have hread : (compact keep items read).1[read]? = items[read]? := compact_getElem?_of_le le_rfl
    have htake : items.toList.take (read + 1) = items.toList.take read ++ items[read]?.toList := by
      rw [List.take_add_one, Vector.getElem?_toList]
    rw [htake, List.filter_append, ← ih]
    cases hitem : items[read]? with
    | none => rw [compact_succ_of_end (hread.trans hitem)]; simp
    | some item =>
      by_cases hkeep : keep item = true
      · have hlt : (compact keep items read).2 < n :=
          Nat.lt_of_le_of_lt (compact_write_le read) (Vector.getElem?_eq_some_iff.1 hitem).1
        rw [compact_succ_of_keep (hread.trans hitem) hkeep]
        dsimp only
        rw [Vector.toList_setIfInBounds, List.take_add_one,
          List.take_set_of_le le_rfl, List.getElem?_set_self (by simpa using hlt)]
        simp [hkeep]
      · rw [compact_succ_of_drop (hread.trans hitem) hkeep]
        simp [hkeep]

/-- Only the entries that are read matter. -/
theorem compact_congr {keep' : α → Bool} {read : ℕ}
    (h : ∀ item ∈ items.toList.take read, keep item = keep' item) :
    compact keep items read = compact keep' items read := by
  induction read with
  | zero => rfl
  | succ read ih =>
    have hle : items.toList.take read ⊆ items.toList.take (read + 1) :=
      (List.take_sublist_take_left (Nat.le_succ read)).subset
    have hprefix := ih fun item hmem ↦ h item (hle hmem)
    have hread : (compact keep items read).1[read]? = items[read]? := compact_getElem?_of_le le_rfl
    rw [compact, compact, ← hprefix]
    dsimp only
    rw [hread]
    cases hitem : items[read]? with
    | none => rfl
    | some item =>
      have hmem : item ∈ items.toList.take (read + 1) := by
        rw [List.take_add_one, Vector.getElem?_toList, hitem]
        simp
      dsimp only
      rw [h item hmem]

end Compaction
