import Mathlib

/-!
# Insertion from the end

The inner loop of an insertion sort over an array moves items up from the end while the new one
precedes them. With an order that is transitive and compares any two of the items, the loop keeps
the array ranked; what it holds is what was inserted.

`foldl_insertFromEnd_pairwise` and `foldl_insertFromEnd_perm` are the sort by repeated insertion.
-/

variable {α : Type*}

/-- Insert `x` below the items at the end that it precedes. -/
def insertFromEnd (r : α → α → Bool) (l : List α) (x : α) : List α :=
  l.rdropWhile (r x) ++ x :: l.rtakeWhile (r x)

variable {r : α → α → Bool}

/-- An insertion loses nothing. -/
theorem insertFromEnd_perm (l : List α) (x : α) : (insertFromEnd r l x).Perm (x :: l) := by
  have hsplit : l.rdropWhile (r x) ++ l.rtakeWhile (r x) = l := List.rdropWhile_append_rtakeWhile
  have hmiddle : (insertFromEnd r l x).Perm (x :: (l.rdropWhile (r x) ++ l.rtakeWhile (r x))) :=
    List.perm_middle
  rwa [hsplit] at hmiddle

/-- **Insertion keeps the order.** -/
theorem insertFromEnd_pairwise (htrans : ∀ a b c, r a b → r b c → r a c) {l : List α} {x : α}
    (htotal : ∀ a ∈ l, r x a ∨ r a x) (h : l.Pairwise fun a b ↦ r a b = true) :
    (insertFromEnd r l x).Pairwise fun a b ↦ r a b = true := by
  have hsplit : l.rdropWhile (r x) ++ l.rtakeWhile (r x) = l := List.rdropWhile_append_rtakeWhile
  rw [← hsplit, List.pairwise_append] at h
  obtain ⟨hfront, hback, hcross⟩ := h
  have hafter : ∀ b ∈ l.rtakeWhile (r x), r x b = true := fun b hb ↦ List.mem_rtakeWhile_imp hb
  -- the last item that stays does not come after `x`, and the others come before it
  have hbefore : ∀ a ∈ l.rdropWhile (r x), r a x = true := by
    intro a ha
    have hne : l.rdropWhile (r x) ≠ [] := List.ne_nil_of_mem ha
    have hlast := List.rdropWhile_last_not (r x) l hne
    have hmem : (l.rdropWhile (r x)).getLast hne ∈ l :=
      (List.rdropWhile_prefix (r x) l).subset (List.getLast_mem hne)
    have hlast' : r ((l.rdropWhile (r x)).getLast hne) x = true :=
      (htotal _ hmem).resolve_left hlast
    rw [← List.dropLast_append_getLast hne, List.mem_append, List.mem_singleton] at ha
    rcases ha with ha | rfl
    · rw [← List.dropLast_append_getLast hne, List.pairwise_append] at hfront
      exact htrans _ _ _ (hfront.2.2 a ha _ (List.mem_singleton.2 rfl)) hlast'
    · exact hlast'
  refine List.pairwise_append.2 ⟨hfront, List.pairwise_cons.2 ⟨hafter, hback⟩, ?_⟩
  intro a ha b hb
  rcases List.mem_cons.1 hb with rfl | hb
  · exact hbefore a ha
  · exact hcross a ha b hb

/-- Nor do several. -/
theorem foldl_insertFromEnd_perm (l acc : List α) :
    (l.foldl (insertFromEnd r) acc).Perm (l ++ acc) := by
  induction l generalizing acc with
  | nil => exact List.Perm.refl _
  | cons x l ih =>
    have hstep : (l ++ insertFromEnd r acc x).Perm (l ++ x :: acc) :=
      (insertFromEnd_perm acc x).append_left l
    exact (ih _).trans (hstep.trans List.perm_middle)

/-- **The sort**: insertion of items any two of which are compared leaves them ranked. -/
theorem foldl_insertFromEnd_pairwise (htrans : ∀ a b c, r a b → r b c → r a c) {l acc : List α}
    (htotal : (acc ++ l).Pairwise fun a b ↦ r b a ∨ r a b)
    (h : acc.Pairwise fun a b ↦ r a b = true) :
    (l.foldl (insertFromEnd r) acc).Pairwise fun a b ↦ r a b = true := by
  induction l generalizing acc with
  | nil => exact h
  | cons x l ih =>
    have hsymm : ∀ {a b : α}, (r b a ∨ r a b) → (r a b ∨ r b a) := fun h ↦ h.symm
    have hinsert : (insertFromEnd r acc x ++ l).Perm (x :: acc ++ l) :=
      (insertFromEnd_perm acc x).append_right l
    have hperm : (acc ++ x :: l).Perm (insertFromEnd r acc x ++ l) :=
      List.perm_middle.trans hinsert.symm
    refine ih (htotal.perm hperm hsymm) (insertFromEnd_pairwise htrans ?_ h)
    intro a ha
    exact (List.pairwise_append.1 htotal).2.2 a ha x (List.mem_cons_self ..)
