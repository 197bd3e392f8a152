import Mathlib

/-!
# Runs of a machine

A machine takes one action after the other; an action that cannot be taken in a state has no
successor there. What holds at the start and is kept by every action holds at the end of a run.

`run_invariant` allows the actions of a run to be restricted, for results that hold of runs without
some of them.
-/

namespace Machine

variable {σ α : Type} {step : σ → α → Option σ} {s t u : σ} {a : α} {actions : List α}

/-- A run through a list of actions. -/
def run (step : σ → α → Option σ) (s : σ) (actions : List α) : Option σ := actions.foldlM step s

/-- No action leads nowhere else. -/
theorem run_nil : run step s [] = some t ↔ s = t := Option.some_inj

/-- One action, and the others from there. -/
theorem run_cons :
    run step s (a :: actions) = some u ↔ ∃ t, step s a = some t ∧ run step t actions = some u := by
  rw [run, List.foldlM_cons]
  exact Option.bind_eq_some_iff

/-- **The rule for invariants**, along a run whose actions are of one kind. -/
theorem run_invariant {I : σ → Prop} {P : α → Prop}
    (hstep : ∀ s a t, P a → I s → step s a = some t → I t) (hactions : ∀ a ∈ actions, P a)
    (hs : I s) (h : run step s actions = some t) : I t := by
  induction actions generalizing s with
  | nil =>
    obtain rfl := run_nil.1 h
    exact hs
  | cons a actions ih =>
    obtain ⟨u, hfirst, hrest⟩ := run_cons.1 h
    exact ih (fun b hb ↦ hactions b (List.mem_cons_of_mem _ hb))
      (hstep s a u (hactions a List.mem_cons_self) hs hfirst) hrest

end Machine
