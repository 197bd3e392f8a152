import Mathlib

/-!
# Programs that may fail

A program over a state `σ` ends with a value or with an error, and leaves a state either way: what
it did before it failed stays done. A `Triple` says what holds after each way to end. `Moves r` says
that every way to end is related to the start by `r`; when `r` is reflexive and transitive it is
closed under the ways to put programs together, which makes it the rule for frames, for invariants
and for what only grows.

A `Triple` is used for results with two ends, `Moves` for what is left alone, and `Leads` for
programs that cannot fail. Each has the same rules, sequence, consequence and the choice between two
programs, so that a proof follows the program it is about.
-/

/-- A program over the state `σ`. -/
def Prog (σ ε α : Type) : Type := σ → Except ε α × σ

namespace Prog

variable {σ τ ε α β : Type}

instance : Monad (Prog σ ε) where
  pure a s := (.ok a, s)
  bind p f s := match p s with
    | (.ok a, s') => f a s'
    | (.error e, s') => (.error e, s')

/-- Stop with an error. -/
def fail (e : ε) : Prog σ ε α := fun s ↦ (.error e, s)

/-- The state. -/
def get : Prog σ ε σ := fun s ↦ (.ok s, s)

/-- Change the state. -/
def modify (f : σ → σ) : Prog σ ε Unit := fun s ↦ (.ok (), f s)

/-- Go on whatever the outcome, with the outcome as the value. -/
def attempt (p : Prog σ ε α) : Prog σ ε (Except ε α) := fun s ↦ (.ok (p s).1, (p s).2)

/-- A program over a part of the state. -/
def on (part : σ → τ) (put : τ → σ → σ) (p : Prog τ ε α) : Prog σ ε α := fun s ↦
  ((p (part s)).1, put (p (part s)).2 s)

/-- The value of a computation that leaves the state alone. -/
def lift : Except ε α → Prog σ ε α
  | .ok a => pure a
  | .error e => fail e

/-- Stop with an error unless `c` holds. -/
def check (c : Prop) [Decidable c] (e : ε) : Prog σ ε Unit := if c then pure () else fail e

@[simp] theorem pure_apply (a : α) (s : σ) : (pure a : Prog σ ε α) s = (.ok a, s) := rfl

@[simp] theorem fail_apply (e : ε) (s : σ) : (fail e : Prog σ ε α) s = (.error e, s) := rfl

@[simp] theorem get_apply (s : σ) : (get : Prog σ ε σ) s = (.ok s, s) := rfl

@[simp] theorem modify_apply (f : σ → σ) (s : σ) : (modify f : Prog σ ε Unit) s = (.ok (), f s) :=
  rfl

@[simp]
theorem attempt_apply (p : Prog σ ε α) (s : σ) : p.attempt s = (.ok (p s).1, (p s).2) := rfl

@[simp]
theorem on_apply (part : σ → τ) (put : τ → σ → σ) (p : Prog τ ε α) (s : σ) :
    on part put p s = ((p (part s)).1, put (p (part s)).2 s) := rfl

@[simp] theorem lift_ok (a : α) : (lift (.ok a) : Prog σ ε α) = pure a := rfl

@[simp] theorem lift_error (e : ε) : (lift (.error e) : Prog σ ε α) = fail e := rfl

/-- A condition that holds costs nothing. -/
theorem check_of_pos {c : Prop} [Decidable c] {e : ε} (h : c) :
    (check c e : Prog σ ε Unit) = pure () := if_pos h

/-- One that does not ends the program. -/
theorem check_of_neg {c : Prop} [Decidable c] {e : ε} (h : ¬ c) :
    (check c e : Prog σ ε Unit) = fail e := if_neg h

/-- A program goes on where the first part has left the state. -/
theorem bind_apply (p : Prog σ ε α) (f : α → Prog σ ε β) (s : σ) :
    (p >>= f) s = match p s with
      | (.ok a, s') => f a s'
      | (.error e, s') => (.error e, s') := rfl

/-- The first program succeeds. -/
theorem bind_of_ok {p : Prog σ ε α} {f : α → Prog σ ε β} {s s' : σ} {a : α}
    (h : p s = (.ok a, s')) : (p >>= f) s = f a s' := by
  rw [bind_apply, h]

/-- The first program fails. -/
theorem bind_of_error {p : Prog σ ε α} {f : α → Prog σ ε β} {s s' : σ} {e : ε}
    (h : p s = (.error e, s')) : (p >>= f) s = (.error e, s') := by
  rw [bind_apply, h]

/-- An attempt hands the result on. -/
theorem attempt_of_run {p : Prog σ ε α} {s s' : σ} {result : Except ε α}
    (h : p s = (result, s')) : p.attempt s = (.ok result, s') := by
  rw [attempt_apply, h]

/-- A sequence that succeeds is two programs that succeed. -/
theorem bind_eq_ok {p : Prog σ ε α} {f : α → Prog σ ε β} {s s' : σ} {b : β} :
    (p >>= f) s = (.ok b, s') ↔ ∃ a s₁, p s = (.ok a, s₁) ∧ f a s₁ = (.ok b, s') := by
  rw [bind_apply]
  rcases p s with ⟨e | a, s₁⟩
  · simp
  · simp

/-! ### Triples -/

/-- A success ends with `Q` and a failure with `R`. -/
def Ends (Q : α → σ → Prop) (R : ε → σ → Prop) : Except ε α × σ → Prop
  | (.ok a, s) => Q a s
  | (.error e, s) => R e s

/-- From a state with `P`, a success ends with `Q` and a failure with `R`. -/
def Triple (P : σ → Prop) (p : Prog σ ε α) (Q : α → σ → Prop) (R : ε → σ → Prop) : Prop :=
  ∀ s, P s → Ends Q R (p s)

namespace Triple

variable {P P' : σ → Prop} {Q Q' : α → σ → Prop} {R R' : ε → σ → Prop} {p : Prog σ ε α}

/-- A program that only returns. -/
theorem ret {Q : α → σ → Prop} {a : α} : Triple (Q a) (pure a : Prog σ ε α) Q R := fun _ ↦ id

/-- A program that only fails. -/
theorem fail {R : ε → σ → Prop} {e : ε} : Triple (R e) (Prog.fail e : Prog σ ε α) Q R := fun _ ↦ id

/-- **Sequence**: a failure of the first part is a failure of the whole. -/
theorem bind {M : α → σ → Prop} {f : α → Prog σ ε β} {Q : β → σ → Prop} (hp : Triple P p M R)
    (hf : ∀ a, Triple (M a) (f a) Q R) : Triple P (p >>= f) Q R := by
  intro s hs
  have hfirst := hp s hs
  rw [bind_apply]
  rcases h : p s with ⟨e | a, s₁⟩
  · rwa [h] at hfirst
  · rw [h] at hfirst
    exact hf a s₁ hfirst

/-- **Consequence.** -/
theorem conseq (h : Triple P p Q R) (hP : ∀ s, P' s → P s) (hQ : ∀ a s, Q a s → Q' a s)
    (hR : ∀ e s, R e s → R' e s) : Triple P' p Q' R' := by
  intro s hs
  have hend := h s (hP s hs)
  rcases hrun : p s with ⟨e | a, s₁⟩
  · rw [hrun] at hend
    exact hR e s₁ hend
  · rw [hrun] at hend
    exact hQ a s₁ hend

/-- Two preconditions for the same ends. -/
theorem or (h : Triple P p Q R) (h' : Triple P' p Q R) : Triple (fun s ↦ P s ∨ P' s) p Q R :=
  fun s hs ↦ hs.elim (h s) (h' s)

/-- The program that follows knows the state it starts in. -/
theorem get {f : σ → Prog σ ε β} {Q : β → σ → Prop}
    (h : ∀ s₀, P s₀ → Triple (fun s ↦ s = s₀) (f s₀) Q R) : Triple P (Prog.get >>= f) Q R :=
  fun s hs ↦ h s hs s rfl

/-- The state is changed. -/
theorem modify {f : σ → σ} {Q : Unit → σ → Prop} (h : ∀ s, P s → Q () (f s)) :
    Triple P (Prog.modify f : Prog σ ε Unit) Q R := h

/-- Either the condition holds and the program goes on, or it fails. -/
theorem check {c : Prop} [Decidable c] {e : ε} {Q : Unit → σ → Prop}
    (h : c → ∀ s, P s → Q () s) (h' : ¬ c → ∀ s, P s → R e s) :
    Triple P (Prog.check c e : Prog σ ε Unit) Q R := by
  intro s hs
  unfold Prog.check
  split
  · rename_i hc
    exact h hc s hs
  · rename_i hc
    exact h' hc s hs

/-- Go on whatever the outcome, with what it says. -/
theorem outcome {R' : ε → σ → Prop} (h : Triple P p Q R) :
    Triple P p.attempt (fun result s ↦ Ends Q R (result, s)) R' := fun s hs ↦ h s hs

/-- Go on whatever the outcome. -/
theorem attempt {Q : σ → Prop} (h : Triple P p (fun _ ↦ Q) fun _ ↦ Q) :
    Triple P p.attempt (fun _ ↦ Q) R := by
  intro s hs
  have hend := h s hs
  rw [attempt_apply]
  rcases hrun : p s with ⟨e | a, s₁⟩
  · rwa [hrun] at hend
  · rwa [hrun] at hend

end Triple

/-! ### What relates the end to the start -/

/-- However it ends, `p` ends in a state that `r` relates to the one it started in. -/
def Moves (r : σ → σ → Prop) (p : Prog σ ε α) : Prop := ∀ s, r s (p s).2

/-- The part of the state that `f` reads stays as it is. -/
def Keeps (f : σ → τ) (s s' : σ) : Prop := f s' = f s

instance (f : σ → τ) : Std.Refl (Keeps f) := ⟨fun _ ↦ rfl⟩

instance (f : σ → τ) : IsTrans σ (Keeps f) := ⟨fun _ _ _ h h' ↦ Eq.trans h' h⟩

namespace Moves

variable {r : σ → σ → Prop} {p : Prog σ ε α}

/-- A program that returns leaves the state as it is. -/
theorem ret [Std.Refl r] (a : α) : Moves r (pure a : Prog σ ε α) := fun s ↦ refl_of r s

/-- So does one that fails. -/
theorem fail [Std.Refl r] (e : ε) : Moves r (Prog.fail e : Prog σ ε α) := fun s ↦ refl_of r s

theorem get [Std.Refl r] : Moves r (Prog.get : Prog σ ε σ) := fun s ↦ refl_of r s

theorem lift [Std.Refl r] (x : Except ε α) : Moves r (Prog.lift x : Prog σ ε α) := by
  cases x with
  | ok a => exact ret a
  | error e => exact fail e

theorem check [Std.Refl r] {c : Prop} [Decidable c] (e : ε) :
    Moves r (Prog.check c e : Prog σ ε Unit) := by
  unfold Prog.check
  split
  · exact ret ()
  · exact fail e

/-- A change that the relation allows. -/
theorem modify {f : σ → σ} (h : ∀ s, r s (f s)) : Moves r (Prog.modify f : Prog σ ε Unit) := h

theorem attempt (h : Moves r p) : Moves r p.attempt := h

/-- **Sequence**, by transitivity: also what a failing part has done is allowed. -/
theorem bind [IsTrans σ r] {f : α → Prog σ ε β} (hp : Moves r p) (hf : ∀ a, Moves r (f a)) :
    Moves r (p >>= f) := by
  intro s
  have hfirst := hp s
  rw [bind_apply]
  rcases h : p s with ⟨e | a, s₁⟩
  · rwa [h] at hfirst
  · rw [h] at hfirst
    exact trans_of r hfirst (hf a s₁)

theorem ite {c : Prop} [Decidable c] {q : Prog σ ε α} (hp : Moves r p) (hq : Moves r q) :
    Moves r (if c then p else q) := by
  split
  · exact hp
  · exact hq

/-- A larger relation. -/
theorem mono {r' : σ → σ → Prop} (h : Moves r p) (hr : ∀ s s', r s s' → r' s s') : Moves r' p :=
  fun s ↦ hr s _ (h s)

end Moves

/-- A relation that leads from one condition to the other. -/
theorem Triple.of_moves {r : σ → σ → Prop} {P Q : σ → Prop} {p : Prog σ ε α} (h : Moves r p)
    (hr : ∀ s s', r s s' → P s → Q s') : Triple P p (fun _ ↦ Q) fun _ ↦ Q := by
  intro s hs
  have hend := hr s _ (h s) hs
  rcases hrun : p s with ⟨e | a, s₁⟩
  · rwa [hrun] at hend
  · rwa [hrun] at hend

/-! ### Programs without errors -/

/-- From a state with `P`, the program ends in one with `Q`. -/
def Leads (P : σ → Prop) (p : Prog σ ε α) (Q : σ → Prop) : Prop := ∀ s, P s → Q (p s).2

/-- A program that cannot fail has a result. -/
theorem exists_ok [IsEmpty ε] (p : Prog σ ε α) (s : σ) : ∃ a, p s = (.ok a, (p s).2) := by
  rcases h : p s with ⟨e | a, s'⟩
  · exact isEmptyElim e
  · exact ⟨a, rfl⟩

namespace Leads

variable {P P' M Q Q' : σ → Prop} {p : Prog σ ε α}

/-- **Consequence.** -/
theorem conseq (h : Leads P p Q) (hP : ∀ s, P' s → P s) (hQ : ∀ s, Q s → Q' s) : Leads P' p Q' :=
  fun s hs ↦ hQ _ (h s (hP s hs))

/-- **Sequence** of programs that cannot fail. -/
theorem bind [IsEmpty ε] {f : α → Prog σ ε β} (hp : Leads P p M) (hf : ∀ a, Leads M (f a) Q) :
    Leads P (p >>= f) Q := by
  intro s hs
  obtain ⟨a, ha⟩ := exists_ok p s
  rw [bind_of_ok ha]
  exact hf a _ (hp s hs)

/-- The program that follows knows the state it starts in. -/
theorem get {f : σ → Prog σ ε β} (h : ∀ s, P s → Q (f s s).2) : Leads P (Prog.get >>= f) Q := h

theorem of_moves {r : σ → σ → Prop} (h : Moves r p) (hr : ∀ s s', r s s' → P s → Q s') :
    Leads P p Q := fun s hs ↦ hr s _ (h s) hs

theorem ret (a : α) : Leads P (pure a : Prog σ ε α) P := fun _ ↦ id

theorem ite {c : Prop} [Decidable c] {q : Prog σ ε α} (hp : Leads P p Q) (hq : Leads P q Q) :
    Leads P (if c then p else q) Q := by
  split
  · exact hp
  · exact hq

theorem of_triple (h : Triple P p (fun _ ↦ Q) fun _ ↦ Q) : Leads P p Q := by
  intro s hs
  have hend := h s hs
  rcases hrun : p s with ⟨e | a, s₁⟩
  · rwa [hrun] at hend
  · rwa [hrun] at hend

end Leads

/-- A condition that is kept, whichever way the program ends. -/
theorem Triple.of_leads {P : σ → Prop} {p : Prog σ ε α} (h : Leads P p P) :
    Triple P p (fun _ ↦ P) fun _ ↦ P := by
  intro s hs
  have hend := h s hs
  rcases hrun : p s with ⟨e | a, s₁⟩
  · rwa [hrun] at hend
  · rwa [hrun] at hend

/-- From every state, the programs end in the same state. -/
def EndsLike (p : Prog σ ε α) (q : Prog σ ε β) : Prop := ∀ s, (p s).2 = (q s).2

namespace EndsLike

variable {p : Prog σ ε α}

theorem refl (p : Prog σ ε α) : EndsLike p p := fun _ ↦ rfl

/-- The value does not matter. -/
theorem bind_pure [IsEmpty ε] (p : Prog σ ε α) (f : α → β) :
    EndsLike (p >>= fun a ↦ pure (f a)) p := by
  intro s
  obtain ⟨a, ha⟩ := exists_ok p s
  rw [bind_of_ok ha, pure_apply]

theorem trans {γ : Type} {q : Prog σ ε β} {r : Prog σ ε γ} (h : EndsLike p q) (h' : EndsLike q r) :
    EndsLike p r := fun s ↦ (h s).trans (h' s)

/-- Only what follows differs. -/
theorem bind [IsEmpty ε] {γ : Type} {f : α → Prog σ ε β} {g : α → Prog σ ε γ}
    (h : ∀ a, EndsLike (f a) (g a)) : EndsLike (p >>= f) (p >>= g) := by
  intro s
  obtain ⟨a, ha⟩ := exists_ok p s
  rw [bind_of_ok ha, bind_of_ok ha]
  exact h a _

/-- Only what comes first differs. -/
theorem bind_left [IsEmpty ε] {γ : Type} {q : Prog σ ε β} (h : EndsLike p q) (r : Prog σ ε γ) :
    EndsLike (p >>= fun _ ↦ r) (q >>= fun _ ↦ r) := by
  intro s
  obtain ⟨a, ha⟩ := exists_ok p s
  obtain ⟨b, hb⟩ := exists_ok q s
  rw [bind_of_ok ha, bind_of_ok hb, h s]

theorem ite {c : Prop} [Decidable c] {p' : Prog σ ε α} {q q' : Prog σ ε β} (h : EndsLike p q)
    (h' : EndsLike p' q') : EndsLike (if c then p else p') (if c then q else q') := by
  split
  · exact h
  · exact h'

end EndsLike

end Prog
