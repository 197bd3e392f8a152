import Mathlib

/-!
# Vectors read at an index that is in bounds by its type

An index of `Fin n` leaves nothing to prove when it reads a vector of length `n`.

It is stated once, for `simp`, so that a proof may go from the one form of the index to the other.
-/

variable {α : Type*} {n : ℕ}

instance instGetElemSlot : GetElem (Vector α n) (Fin n) α fun _ _ ↦ True where
  getElem v i _ := v.get i

/-- The entry is the one at the number of the index. -/
@[simp]
theorem getElem_slot (v : Vector α n) (i : Fin n) : v[i] = v[i.val] := rfl
