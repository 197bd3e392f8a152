import Mathlib

/-!
# Taking what is due, the earliest first

A list of entries with distinct keys, some of them due, each due at a time. One step takes an entry
that is due and none is due before, and settles it where it stands. `Run.spec`: a run to the end
takes every due entry once, in the order of the times, and leaves the list with exactly those
settled.

The keys, the times and what settling does are parameters. What is asked is that settling keeps the
key and makes an entry not due, so that a run takes an entry once.
-/

namespace Agenda

variable {α κ τ : Type*} [DecidableEq κ] [LinearOrder τ]

variable (key : α → κ) (due : α → Bool) (time : α → τ) (settle : α → α)

/-- The list with the entry of a key settled. -/
def settleAt (k : κ) (l : List α) : List α := l.map fun a ↦ if key a = k then settle a else a

/-- An entry that is due, and none is due before it. -/
structure IsNext (l : List α) (a : α) : Prop where
  mem : a ∈ l
  isDue : due a = true
  le : ∀ b ∈ l, due b = true → time a ≤ time b

/-- The entries that are taken until nothing is due, and the list at the end. -/
inductive Run : List α → List α → List α → Prop
  | stop {l : List α} (h : ∀ a ∈ l, due a = false) : Run l [] l
  | next {l taken after : List α} {a : α} (h : IsNext due time l a)
      (rest : Run (settleAt key settle (key a) l) taken after) : Run l (a :: taken) after

variable {key due time settle}

omit [DecidableEq κ] in
/-- With distinct keys, an entry is known by its key. -/
theorem eq_of_key_eq {l : List α} (hnodup : (l.map key).Nodup) {a b : α} (ha : a ∈ l) (hb : b ∈ l)
    (h : key a = key b) : a = b :=
  List.inj_on_of_nodup_map hnodup ha hb h

/-- Settling keeps the keys. -/
theorem map_key_settleAt (hkey : ∀ a, key (settle a) = key a) (k : κ) (l : List α) :
    (settleAt key settle k l).map key = l.map key := by
  rw [settleAt, List.map_map]
  refine List.map_congr_left fun a _ ↦ ?_
  rw [Function.comp_apply]
  split
  · exact hkey a
  · rfl

/-- What is in the list after a step: the settled entry, and the others. -/
theorem mem_settleAt {l : List α} (hnodup : (l.map key).Nodup) {a b : α} (ha : a ∈ l) :
    b ∈ settleAt key settle (key a) l ↔ b = settle a ∨ (b ∈ l ∧ key b ≠ key a) := by
  rw [settleAt, List.mem_map]
  constructor
  · rintro ⟨c, hc, rfl⟩
    by_cases h : key c = key a
    · rw [if_pos h, eq_of_key_eq hnodup hc ha h]
      exact Or.inl rfl
    · rw [if_neg h]
      exact Or.inr ⟨hc, h⟩
  · rintro (rfl | ⟨hb, hne⟩)
    · exact ⟨a, ha, if_pos rfl⟩
    · exact ⟨b, hb, if_neg hne⟩

/-- What is still due after a step: all but the entry that was taken. -/
theorem perm_filter_settleAt (hkey : ∀ a, key (settle a) = key a) {l : List α}
    (hnodup : (l.map key).Nodup) {a : α} (ha : a ∈ l) (hdue : due a = true)
    (hsettled : due (settle a) = false) :
    (l.filter due).Perm (a :: (settleAt key settle (key a) l).filter due) := by
  have hafter : ((settleAt key settle (key a) l).map key).Nodup := by
    rwa [map_key_settleAt hkey]
  refine (List.perm_ext_iff_of_nodup (hnodup.of_map.filter _) ?_).2 fun b ↦ ?_
  · rw [List.nodup_cons, List.mem_filter]
    refine ⟨?_, hafter.of_map.filter _⟩
    rintro ⟨hmem, -⟩
    rcases (mem_settleAt hnodup ha).1 hmem with heq | ⟨-, hne⟩
    · rw [← heq, hdue] at hsettled
      cases hsettled
    · exact hne rfl
  · rw [List.mem_cons, List.mem_filter, List.mem_filter, mem_settleAt hnodup ha]
    constructor
    · rintro ⟨hb, hb'⟩
      by_cases h : key b = key a
      · exact Or.inl (eq_of_key_eq hnodup hb ha h)
      · exact Or.inr ⟨Or.inr ⟨hb, h⟩, hb'⟩
    · rintro (rfl | ⟨rfl | ⟨hb, -⟩, hb'⟩)
      · exact ⟨ha, hdue⟩
      · rw [hsettled] at hb'
        cases hb'
      · exact ⟨hb, hb'⟩

/-- Entries of the list after a step can be settled when those of the list can. -/
theorem settles_settleAt {l : List α} (hnodup : (l.map key).Nodup) {a : α} (ha : a ∈ l)
    (hdue : due a = true) (hsettles : ∀ b ∈ l, due b = true → due (settle b) = false) :
    ∀ b ∈ settleAt key settle (key a) l, due b = true → due (settle b) = false := by
  intro b hb hb'
  rcases (mem_settleAt hnodup ha).1 hb with rfl | ⟨hb, -⟩
  · rw [hsettles a ha hdue] at hb'
    cases hb'
  · exact hsettles b hb hb'

/-- **What a run does.** -/
theorem Run.spec (hkey : ∀ a, key (settle a) = key a) {l taken after : List α}
    (h : Run key due time settle l taken after) (hnodup : (l.map key).Nodup)
    (hsettles : ∀ a ∈ l, due a = true → due (settle a) = false) :
    taken.Perm (l.filter due) ∧ taken.Pairwise (fun a b ↦ time a ≤ time b) ∧
      after = l.map fun a ↦ if due a then settle a else a := by
  induction h with
  | @stop l hnone =>
    refine ⟨?_, List.Pairwise.nil, ?_⟩
    · rw [List.filter_eq_nil_iff.2 fun a ha ↦ by rw [hnone a ha]; exact Bool.false_ne_true]
    · conv_lhs => rw [← List.map_id l]
      exact List.map_congr_left fun a ha ↦ by rw [hnone a ha]; rfl
  | @next l taken after a hnext _ ih =>
    have hsettled := hsettles a hnext.mem hnext.isDue
    have hafter := map_key_settleAt hkey (key a) l
    obtain ⟨hperm, hsorted, hend⟩ := ih (by rw [hafter]; exact hnodup)
      (settles_settleAt hnodup hnext.mem hnext.isDue hsettles)
    refine ⟨?_, List.pairwise_cons.2 ⟨fun b hb ↦ ?_, hsorted⟩, ?_⟩
    · exact (hperm.cons a).trans
        (perm_filter_settleAt hkey hnodup hnext.mem hnext.isDue hsettled).symm
    · -- what is taken later was due in the list as well
      obtain ⟨hb, hb'⟩ := List.mem_filter.1 (hperm.mem_iff.1 hb)
      rcases (mem_settleAt hnodup hnext.mem).1 hb with rfl | ⟨hb, -⟩
      · rw [hsettled] at hb'
        cases hb'
      · exact hnext.le b hb hb'
    · rw [hend, settleAt, List.map_map]
      refine List.map_congr_left fun b hb ↦ ?_
      rw [Function.comp_apply]
      by_cases h : key b = key a
      · obtain rfl := eq_of_key_eq hnodup hb hnext.mem h
        rw [if_pos h, hsettled, hnext.isDue]
        rfl
      · rw [if_neg h]

end Agenda
