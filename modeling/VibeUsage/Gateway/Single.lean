import VibeUsage.Gateway.Tasks

/-!
# One operation at a time

`busy` is set when a request is admitted and reset in the same stretch in which its handler ends, so
it says whether a handler is at work (`GatewayState.Single`). A client lives inside the life of its
handler: it is created by the operation, which the handler waits for, and the handler closes it
before it ends (`Handling.Sound`).

* `HandlerStep.sound` and `OperationStep.sound` are the steps of one request.
* `Step.single` is one stretch of the gateway, and `Reachable.single` a run of them.
* `one_operation_at_a_time` is read off the invariant, for every reachable state.
-/

namespace VibeUsage

namespace Handling

/-- The client has been created and is not closed. -/
def Alive (h : Handling) : Prop := h.client = some .inUse ∨ h.client = some .closing

/-- The client is created by the operation, and nobody closes it while the operation uses it. -/
structure Tied (h : Handling) : Prop where
  noOperation : h.operation = none → h.client = none
  created : ∀ operation, h.operation = some operation → operation.pc = .created → h.client = none
  entering : ∀ operation, h.operation = some operation →
    operation.pc = .entering ∨ operation.pc = .working → h.client = some .inUse

/-- What holds of a request whenever no task of it runs. -/
structure Sound (h : Handling) : Prop extends Tied h where
  readBody : h.pc = .readBody → h.operation = none
  closing : h.pc = .closing → h.OperationDone ∧ h.client ≠ none ∧ h.client ≠ some .inUse
  ended : h.pc = .ended → h.OperationDone ∧ ¬ h.Alive

/-- A request begins without an operation. -/
theorem sound_init : init.Sound where
  noOperation := fun _ ↦ rfl
  created := fun _ _ _ ↦ rfl
  entering := fun _ hoperation ↦ by cases hoperation
  readBody := fun _ ↦ rfl
  closing := fun hpc ↦ by cases hpc
  ended := fun hpc ↦ by cases hpc

/-! ### The handler -/

/-- The operation that has ended is what is waited for. -/
theorem Tied.settle {h : Handling} (ht : h.Tied) : h.settle.Tied where
  noOperation := ht.noOperation
  created := ht.created
  entering := ht.entering

/-- In the body nothing more is asked. -/
theorem Tied.sound {h : Handling} (ht : h.Tied) {pc : HandlerPc} (hread : pc ≠ .readBody)
    (hclosing : pc ≠ .closing) (hended : pc ≠ .ended) : Sound { h with pc := pc } where
  noOperation := ht.noOperation
  created := ht.created
  entering := ht.entering
  readBody := fun hpc ↦ absurd hpc hread
  closing := fun hpc ↦ absurd hpc hclosing
  ended := fun hpc ↦ absurd hpc hended

/-- Inside its body a handler has not ended. -/
theorem ne_ended_of_inBody {pc : HandlerPc} (h : InBody pc) : pc ≠ .ended := by
  rintro rfl
  exact h

/-- **A request whose operation is done** may go on to its end. -/
theorem sound_of_done {h : Handling} (hdone : h.OperationDone) (hnone : h.operation = none →
    h.client = none) (hread : h.pc ≠ .readBody)
    (hclosing : h.pc = .closing → h.client ≠ none ∧ h.client ≠ some .inUse)
    (hended : h.pc = .ended → ¬ h.Alive) : h.Sound where
  noOperation := hnone
  created := by
    intro operation hoperation hcreated
    obtain ⟨outcome, hpc⟩ := hdone operation hoperation
    rw [hpc] at hcreated
    cases hcreated
  entering := by
    intro operation hoperation hentering
    obtain ⟨outcome, hpc⟩ := hdone operation hoperation
    rw [hpc] at hentering
    rcases hentering with hentering | hentering <;> cases hentering
  readBody := fun hpc ↦ absurd hpc hread
  closing := fun hpc ↦ ⟨hdone, hclosing hpc⟩
  ended := fun hpc ↦ ⟨hdone, hended hpc⟩

/-- The client is closed. -/
theorem Tied.closeClient {h : Handling} (ht : h.Tied) (hdone : h.OperationDone) :
    h.closeClient.Sound := by
  unfold Handling.closeClient
  split
  · rename_i hclient
    exact sound_of_done hdone ht.noOperation (by simp) (fun hpc ↦ by cases hpc)
      fun _ ↦ by simp [Alive, hclient]
  · rename_i hclient
    have hsome : h.operation ≠ none := fun hnone ↦ by
      rw [ht.noOperation hnone] at hclient
      cases hclient
    exact sound_of_done hdone (fun hnone ↦ absurd hnone hsome) (by simp) (fun _ ↦ by simp)
      fun hpc ↦ by cases hpc
  · rename_i hclient
    exact sound_of_done hdone ht.noOperation (by simp) (fun _ ↦ by simp [hclient])
      fun hpc ↦ by cases hpc
  · rename_i hclient
    exact sound_of_done hdone ht.noOperation (by simp) (fun hpc ↦ by cases hpc)
      fun _ ↦ by simp [Alive, hclient]

/-- A cancellation leaves the operation where it is. -/
theorem Tied.cancelOperation {h : Handling} (ht : h.Tied) :
    Tied { h with operation := h.operation.map fun o ↦ { o with cancelled := true } } where
  noOperation := fun hnone ↦ ht.noOperation (Option.map_eq_none_iff.1 hnone)
  created := by
    intro operation hoperation hpc
    obtain ⟨o, ho, rfl⟩ := Option.map_eq_some_iff.1 hoperation
    exact ht.created o ho hpc
  entering := by
    intro operation hoperation hpc
    obtain ⟨o, ho, rfl⟩ := Option.map_eq_some_iff.1 hoperation
    exact ht.entering o ho hpc

/-- The operation is joined, or cancelled and joined. -/
theorem Tied.endOperation {h : Handling} (ht : h.Tied) : h.endOperation.Sound := by
  unfold Handling.endOperation
  split
  · rename_i hnone
    refine ht.closeClient fun operation hoperation ↦ ?_
    rw [hnone] at hoperation
    cases hoperation
  · rename_i outcome cancelled hsome
    refine ht.closeClient fun operation hoperation ↦ ?_
    obtain rfl := Option.some.inj (hsome.symm.trans hoperation)
    exact ⟨outcome, rfl⟩
  · rename_i pc cancelled _ hsome
    have hjoin : HandlerPc.joinOperation ≠ .readBody := by decide
    have hcancel := ht.cancelOperation.sound hjoin (by decide) (by decide)
    rw [hsome] at hcancel
    exact hcancel

/-- The watcher is joined first. -/
theorem Tied.cleanUp {h : Handling} (ht : h.Tied) : h.cleanUp.Sound := by
  unfold Handling.cleanUp
  split
  · exact {
      noOperation := ht.noOperation
      created := ht.created
      entering := ht.entering
      readBody := fun hpc ↦ by cases hpc
      closing := fun hpc ↦ by cases hpc
      ended := fun hpc ↦ by cases hpc }
  · exact ht.endOperation

/-- **The handler keeps its request sound**, and it does not run once it has ended. -/
theorem HandlerStep.sound {h h' : Handling} (hstep : HandlerStep h h') (hs : h.Sound) :
    h'.Sound ∧ h.pc ≠ .ended := by
  have ht := hs.toTied
  -- One case for each line of the handler; most of them keep what is tied to the operation.
  cases hstep with
  | bodyRead hpc =>
    have hclient : h.client = none := hs.noOperation (hs.readBody hpc)
    refine ⟨?_, by simp [hpc]⟩
    exact {
      noOperation := fun _ ↦ hclient
      created := fun _ _ _ ↦ hclient
      entering := fun operation hoperation hentering ↦ by
        obtain rfl := Option.some.inj hoperation
        rcases hentering with hentering | hentering <;> cases hentering
      readBody := fun hread ↦ by cases hread
      closing := fun hclosing ↦ by cases hclosing
      ended := fun hended ↦ by cases hended }
  | endedEarly hpc => exact ⟨ht.cleanUp, by simp [hpc]⟩
  | prepare hpc => exact ⟨ht.sound (by decide) (by decide) (by decide), by simp [hpc]⟩
  | prepared hpc => exact ⟨ht.sound (by decide) (by decide) (by decide), by simp [hpc]⟩
  | reply hpc => exact ⟨ht.sound (by decide) (by decide) (by decide), by simp [hpc]⟩
  | abandoned hpc => exact ⟨ht.cleanUp, by simp [hpc]⟩
  | replied hpc => exact ⟨ht.cleanUp, by rcases hpc with hpc | hpc <;> simp [hpc]⟩
  | failed hpc => exact ⟨ht.cleanUp, ne_ended_of_inBody hpc⟩
  | failedLate hpc =>
    refine ⟨ht.sound (by decide) (by decide) (by decide), ?_⟩
    rcases hpc with hpc | hpc | hpc <;> simp [hpc]
  | raiseCancelled hpc => exact ⟨ht.settle.cleanUp, ne_ended_of_inBody hpc⟩
  | raiseTimeout hpc =>
    refine ⟨ht.settle.cleanUp, ?_⟩
    rcases hpc with hpc | hpc | hpc <;> simp [hpc]
  | raiseTimeoutLate hpc =>
    refine ⟨ht.settle.sound (by decide) (by decide) (by decide), ?_⟩
    rcases hpc with hpc | hpc | hpc <;> simp [hpc]
  | watcherJoined hpc => exact ⟨ht.endOperation, by simp [hpc]⟩
  | operationJoined hpc hdone => exact ⟨ht.closeClient hdone, by simp [hpc]⟩
  | clientClosed hpc hclosed =>
    refine ⟨sound_of_done (hs.closing hpc).1 hs.noOperation (by simp) (by simp) ?_, by simp [hpc]⟩
    intro _
    simp [Alive, hclosed]

/-! ### The other tasks -/

/-- An operation that is not done keeps the handler from closing the client and from ending. -/
theorem Sound.not_over {h : Handling} (hs : h.Sound) {operation : Operation}
    (hoperation : h.operation = some operation) (hpc : ∀ outcome, operation.pc ≠ .done outcome) :
    h.pc ≠ .closing ∧ h.pc ≠ .ended ∧ h.pc ≠ .readBody := by
  have hgoing : ¬ h.OperationDone := fun hdone ↦ by
    obtain ⟨outcome, hdone⟩ := hdone operation hoperation
    exact hpc outcome hdone
  refine ⟨fun h1 ↦ hgoing (hs.closing h1).1, fun h1 ↦ hgoing (hs.ended h1).1, fun h1 ↦ ?_⟩
  rw [hs.readBody h1] at hoperation
  cases hoperation

/-- What the operation has to establish while it is not done. -/
theorem Sound.of_operation {h h' : Handling} (hs : h.Sound) {operation : Operation}
    (hoperation : h.operation = some operation) (hpc : ∀ outcome, operation.pc ≠ .done outcome)
    (hsame : h'.pc = h.pc) (ht : h'.Tied) : h'.Sound ∧ h'.pc = h.pc := by
  obtain ⟨hclosing, hended, hread⟩ := hs.not_over hoperation hpc
  exact ⟨{ toTied := ht
           readBody := fun hpc' ↦ absurd (hsame.symm.trans hpc') hread
           closing := fun hpc' ↦ absurd (hsame.symm.trans hpc') hclosing
           ended := fun hpc' ↦ absurd (hsame.symm.trans hpc') hended }, hsame⟩

/-- An operation that there is accounts for its client. -/
theorem tied_of_some {h : Handling} {operation : Operation}
    (hoperation : h.operation = some operation)
    (hcreated : operation.pc = .created → h.client = none)
    (hentering : operation.pc = .entering ∨ operation.pc = .working → h.client = some .inUse) :
    h.Tied where
  noOperation := fun hnone ↦ by
    rw [hoperation] at hnone
    cases hnone
  created := fun o ho ↦ by
    obtain rfl := Option.some.inj (hoperation.symm.trans ho)
    exact hcreated
  entering := fun o ho ↦ by
    obtain rfl := Option.some.inj (hoperation.symm.trans ho)
    exact hentering

/-- **A step of the operation** keeps the request sound. -/
theorem OperationStep.sound {h h' : Handling} (hstep : OperationStep h h') (hs : h.Sound) :
    h'.Sound ∧ h'.pc = h.pc := by
  cases hstep with
  | enter hpc =>
    exact hs.of_operation hpc (by simp) rfl (tied_of_some rfl (by simp) (by simp))
  | noClient hpc =>
    exact hs.of_operation hpc (by simp) rfl (tied_of_some rfl (by simp) (by simp))
  | neverRan hpc =>
    exact hs.of_operation hpc (by simp) rfl (tied_of_some rfl (by simp) (by simp))
  | entered hpc =>
    have hclient := hs.entering _ hpc (.inl rfl)
    exact hs.of_operation hpc (by simp) rfl (tied_of_some rfl (by simp) fun _ ↦ hclient)
  | enterFailed hpc =>
    exact hs.of_operation hpc (by simp) rfl (tied_of_some rfl (by simp) (by simp))
  | left hpc =>
    exact hs.of_operation hpc (by simp) rfl (tied_of_some rfl (by simp) (by simp))
  | finished outcome hpc =>
    exact hs.of_operation hpc (by simp) rfl (tied_of_some rfl (by simp) (by simp))
  | interrupted hpc =>
    have hclient := hs.entering _ hpc (.inr rfl)
    exact hs.of_operation hpc (by simp) rfl (tied_of_some rfl (by simp) fun _ ↦ hclient)

/-- Cancelling the operation changes nothing that is asked. -/
theorem Sound.cancelOperation {h : Handling} (hs : h.Sound) :
    Sound { h with operation := h.operation.map fun o ↦ { o with cancelled := true } } := by
  have hdone : h.OperationDone → OperationDone
      { h with operation := h.operation.map fun o ↦ { o with cancelled := true } } := by
    intro hdone operation hoperation
    obtain ⟨o, ho, rfl⟩ := Option.map_eq_some_iff.1 hoperation
    exact hdone o ho
  exact { toTied := hs.toTied.cancelOperation
          readBody := fun hpc ↦ by
            show h.operation.map _ = none
            rw [hs.readBody hpc]
            rfl
          closing := fun hpc ↦ ⟨hdone (hs.closing hpc).1, (hs.closing hpc).2⟩
          ended := fun hpc ↦ ⟨hdone (hs.ended hpc).1, (hs.ended hpc).2⟩ }

/-- Nothing is asked of the watcher and of the exceptions that wait. -/
theorem Sound.frame {h : Handling} (hs : h.Sound) (watcher : Option Watcher)
    (cancelled timedOut : Bool) :
    Sound { h with watcher := watcher, cancelled := cancelled, timedOut := timedOut } where
  noOperation := hs.noOperation
  created := hs.created
  entering := hs.entering
  readBody := hs.readBody
  closing := hs.closing
  ended := hs.ended

/-- So does one of the watcher. -/
theorem WatcherStep.sound {h h' : Handling} (hstep : WatcherStep h h') (hs : h.Sound) :
    h'.Sound ∧ h'.pc = h.pc := by
  cases hstep with
  | gone => exact ⟨hs.cancelOperation.frame (some .done) h.cancelled h.timedOut, rfl⟩
  | idle => exact ⟨hs.frame (some .done) h.cancelled h.timedOut, rfl⟩
  | stopped => exact ⟨hs.frame (some .done) h.cancelled h.timedOut, rfl⟩

/-- So does a cancellation. -/
theorem Sound.cancel {h : Handling} (hs : h.Sound) : h.cancel.Sound ∧ h.cancel.pc = h.pc := by
  unfold Handling.cancel
  split
  · exact ⟨hs, rfl⟩
  · exact ⟨hs, rfl⟩
  · split
    · exact ⟨hs.frame (some (.running true)) h.cancelled h.timedOut, rfl⟩
    · exact ⟨hs, rfl⟩
  · exact ⟨hs.cancelOperation, rfl⟩
  · exact ⟨hs.frame h.watcher true h.timedOut, rfl⟩

/-- So does whatever happens outside. -/
theorem OutsideStep.sound {h h' : Handling} (hstep : OutsideStep h h') (hs : h.Sound) :
    h'.Sound ∧ h'.pc = h.pc := by
  cases hstep with
  | reaped hclosing =>
    refine ⟨?_, rfl⟩
    exact {
      noOperation := fun hnone ↦ by
        rw [hs.noOperation hnone] at hclosing
        cases hclosing
      created := fun operation hoperation hpc ↦ by
        rw [hs.created operation hoperation hpc] at hclosing
        cases hclosing
      entering := fun operation hoperation hpc ↦ by
        rw [hs.entering operation hoperation hpc] at hclosing
        cases hclosing
      readBody := hs.readBody
      closing := fun hpc ↦ ⟨(hs.closing hpc).1, by simp⟩
      ended := fun hpc ↦ ⟨(hs.ended hpc).1, by simp [Alive]⟩ }
  | expired => exact ⟨hs.frame h.watcher h.cancelled true, rfl⟩
  | enterExpired hoperation hpc =>
    have hcancel := hs.cancelOperation
    rw [hoperation] at hcancel
    exact ⟨hcancel, rfl⟩
  | disconnected => exact hs.cancel

end Handling

namespace GatewayState

/-- The request that was admitted as number `i`. -/
def At (s : GatewayState) (i : ℕ) (h : Handling) : Prop := s.handlings[i]? = some h

/-- `busy` says whether a handler is at work, and there is at most one. -/
structure Single (s : GatewayState) : Prop where
  sound : ∀ {i h}, s.At i h → h.Sound
  one : ∀ {i j h h'}, s.At i h → s.At j h' → h.pc ≠ .ended → h'.pc ≠ .ended → i = j
  busy : s.busy = true ↔ ∃ i h, s.At i h ∧ h.pc ≠ .ended

/-- At first there is no request. -/
theorem single_init : init.Single := by
  constructor <;> simp [init, At]

/-- A request is replaced at its own place. -/
theorem at_set {s : GatewayState} {i : ℕ} {h : Handling} (hi : s.At i h) (busy : Bool)
    (h' : Handling) {j : ℕ} {k : Handling} :
    At { s with busy := busy, handlings := s.handlings.set i h' } j k ↔
      (j = i ∧ k = h') ∨ (j ≠ i ∧ s.At j k) := by
  have hlt : i < s.handlings.length := (List.getElem?_eq_some_iff.1 hi).1
  unfold At
  by_cases hji : j = i
  · rw [hji, List.getElem?_set_self hlt, Option.some.injEq]
    simp [eq_comm]
  · rw [List.getElem?_set_ne (Ne.symm hji)]
    simp [hji]

/-- A task that leaves its handler where it is. -/
theorem Single.set {s : GatewayState} (hs : s.Single) {i : ℕ} {h h' : Handling} (hi : s.At i h)
    (hsound : h'.Sound) (hpc : h'.pc = h.pc) :
    Single { s with handlings := s.handlings.set i h' } := by
  -- Every request has a handler at the same place as before.
  have hback : ∀ {j k}, At { s with handlings := s.handlings.set i h' } j k →
      k.Sound ∧ ∃ k', s.At j k' ∧ k'.pc = k.pc := by
    intro j k hj
    rcases (at_set hi s.busy h').1 hj with ⟨rfl, rfl⟩ | ⟨-, hj⟩
    · exact ⟨hsound, h, hi, hpc.symm⟩
    · exact ⟨hs.sound hj, k, hj, rfl⟩
  constructor
  · exact fun hj ↦ (hback hj).1
  · intro j₁ j₂ k₁ k₂ hj₁ hj₂ hk₁ hk₂
    obtain ⟨-, k₁', hj₁', heq₁⟩ := hback hj₁
    obtain ⟨-, k₂', hj₂', heq₂⟩ := hback hj₂
    exact hs.one hj₁' hj₂' (heq₁ ▸ hk₁) (heq₂ ▸ hk₂)
  · refine hs.busy.trans ⟨?_, ?_⟩
    · rintro ⟨j, k, hj, hk⟩
      by_cases hji : j = i
      · obtain rfl : k = h := by
          rw [hji] at hj
          exact Option.some.inj (hj.symm.trans hi)
        exact ⟨i, h', (at_set hi s.busy h').2 (.inl ⟨rfl, rfl⟩), hpc ▸ hk⟩
      · exact ⟨j, k, (at_set hi s.busy h').2 (.inr ⟨hji, hj⟩), hk⟩
    · rintro ⟨j, k, hj, hk⟩
      obtain ⟨-, k', hj', heq⟩ := hback hj
      exact ⟨j, k', hj', heq ▸ hk⟩

/-- The handler runs. -/
theorem Single.leave {s : GatewayState} (hs : s.Single) {i : ℕ} {h h' : Handling} (hi : s.At i h)
    (hsound : h'.Sound) (hpc : h.pc ≠ .ended) : (s.leave i h').Single := by
  have hbusy : s.busy = true := hs.busy.2 ⟨i, h, hi, hpc⟩
  -- The others have ended, since this one is at work.
  have hothers : ∀ {j k}, j ≠ i → s.At j k → k.pc = .ended := by
    intro j k hji hj
    by_contra hk
    exact hji (hs.one hj hi hk hpc)
  have hback : ∀ {j k}, (s.leave i h').At j k → k.pc ≠ .ended → j = i ∧ k = h' := by
    intro j k hj hk
    rcases (at_set hi _ h').1 hj with hsame | ⟨hji, hj⟩
    · exact hsame
    · exact absurd (hothers hji hj) hk
  constructor
  · intro j k hj
    rcases (at_set hi _ h').1 hj with ⟨-, rfl⟩ | ⟨-, hj⟩
    · exact hsound
    · exact hs.sound hj
  · intro j₁ j₂ k₁ k₂ hj₁ hj₂ hk₁ hk₂
    rw [(hback hj₁ hk₁).1, (hback hj₂ hk₂).1]
  · show (if h'.pc = .ended then false else s.busy) = true ↔ _
    constructor
    · intro hstill
      have hne : h'.pc ≠ .ended := fun heq ↦ by
        rw [if_pos heq] at hstill
        cases hstill
      exact ⟨i, h', (at_set hi _ h').2 (.inl ⟨rfl, rfl⟩), hne⟩
    · rintro ⟨j, k, hj, hk⟩
      obtain ⟨-, rfl⟩ := hback hj hk
      rw [if_neg hk, hbusy]

/-- A request that is admitted is the last. -/
theorem at_admitted {s : GatewayState} {i : ℕ} {h : Handling} :
    s.admitted.At i h ↔ s.At i h ∨ (i = s.handlings.length ∧ h = .init) := by
  unfold At admitted
  rw [List.getElem?_append]
  split
  · rename_i hlt
    constructor
    · exact .inl
    · rintro (hi | ⟨rfl, -⟩)
      · exact hi
      · omega
  · rename_i hge
    rw [List.getElem?_singleton]
    constructor
    · intro hi
      split at hi
      · exact .inr ⟨by omega, (Option.some.inj hi).symm⟩
      · cases hi
    · rintro (hi | ⟨rfl, rfl⟩)
      · exact absurd (List.getElem?_eq_some_iff.1 hi).1 hge
      · rw [if_pos (Nat.sub_self _)]

/-- **Only an idle gateway** admits a request. -/
theorem Single.admitted {s : GatewayState} (hs : s.Single) (hbusy : s.busy = false) :
    s.admitted.Single := by
  have hended : ∀ {i h}, s.At i h → h.pc = .ended := by
    intro i h hi
    by_contra hpc
    have := hs.busy.2 ⟨i, h, hi, hpc⟩
    rw [hbusy] at this
    cases this
  have hnew : ∀ {i h}, s.admitted.At i h → h.pc ≠ .ended → i = s.handlings.length := by
    intro i h hi hpc
    rcases at_admitted.1 hi with hi | ⟨hi, -⟩
    · exact absurd (hended hi) hpc
    · exact hi
  constructor
  · intro i h hi
    rcases at_admitted.1 hi with hi | ⟨-, rfl⟩
    · exact hs.sound hi
    · exact Handling.sound_init
  · intro i j h h' hi hj hpc hpc'
    rw [hnew hi hpc, hnew hj hpc']
  · exact ⟨fun _ ↦ ⟨s.handlings.length, .init, at_admitted.2 (.inr ⟨rfl, rfl⟩), by decide⟩,
      fun _ ↦ rfl⟩

/-- A shutdown admits none. -/
theorem Single.shutdown {s : GatewayState} (hs : s.Single) :
    Single { s with stopping := true, handlings := s.handlings.map Handling.cancel } := by
  have hback : ∀ {j k},
      At { s with stopping := true, handlings := s.handlings.map Handling.cancel } j k →
      ∃ k', s.At j k' ∧ k = k'.cancel := by
    intro j k hj
    unfold At at hj
    rw [List.getElem?_map] at hj
    obtain ⟨k', hk', heq⟩ := Option.map_eq_some_iff.1 hj
    exact ⟨k', hk', heq.symm⟩
  constructor
  · intro j k hj
    obtain ⟨k', hk', rfl⟩ := hback hj
    exact (hs.sound hk').cancel.1
  · intro j₁ j₂ k₁ k₂ hj₁ hj₂ hk₁ hk₂
    obtain ⟨k₁', hj₁', rfl⟩ := hback hj₁
    obtain ⟨k₂', hj₂', rfl⟩ := hback hj₂
    rw [(hs.sound hj₁').cancel.2] at hk₁
    rw [(hs.sound hj₂').cancel.2] at hk₂
    exact hs.one hj₁' hj₂' hk₁ hk₂
  · refine hs.busy.trans ⟨?_, ?_⟩
    · rintro ⟨j, k, hj, hk⟩
      refine ⟨j, k.cancel, ?_, (hs.sound hj).cancel.2 ▸ hk⟩
      show (s.handlings.map Handling.cancel)[j]? = _
      rw [List.getElem?_map, show s.handlings[j]? = some k from hj]
      rfl
    · rintro ⟨j, k, hj, hk⟩
      obtain ⟨k', hj', rfl⟩ := hback hj
      exact ⟨j, k', hj', (hs.sound hj').cancel.2 ▸ hk⟩

/-- **What one stretch preserves.** -/
theorem Step.single {s s' : GatewayState} (hstep : Step s s') (hs : s.Single) : s'.Single := by
  cases hstep with
  | arrive _ hbusy => exact hs.admitted hbusy
  | refuse => exact hs
  | handler hi hstep =>
    obtain ⟨hsound, hpc⟩ := hstep.sound (hs.sound hi)
    exact hs.leave hi hsound hpc
  | operation hi hstep =>
    obtain ⟨hsound, hpc⟩ := hstep.sound (hs.sound hi)
    exact hs.set hi hsound hpc
  | watcher hi hstep =>
    obtain ⟨hsound, hpc⟩ := hstep.sound (hs.sound hi)
    exact hs.set hi hsound hpc
  | outside hi hstep =>
    obtain ⟨hsound, hpc⟩ := hstep.sound (hs.sound hi)
    exact hs.set hi hsound hpc
  | shutdown => exact hs.shutdown

/-- **What every run preserves.** -/
theorem Reachable.single {s : GatewayState} (h : s.Reachable) : s.Single := by
  induction h with
  | refl => exact single_init
  | tail _ hstep ih => exact hstep.single ih

/-- **One operation at a time.** Whatever the requests, the tasks, the clients that disconnect, the
timeouts and the shutdown do, in any order: at most one client is alive; a request whose handler has
ended has closed the client it created, if any; while `busy` is false no client is alive; and when
every request has ended the next is admitted, unless the gateway stops. -/
theorem one_operation_at_a_time {s : GatewayState} (hs : s.Reachable) :
    (∀ i j h h', s.At i h → s.At j h' → h.Alive → h'.Alive → i = j) ∧
    (∀ i h, s.At i h → h.pc = .ended → h.client = none ∨ h.client = some .closed) ∧
    (s.busy = false → ∀ i h, s.At i h → ¬ h.Alive) ∧
    ((∀ i h, s.At i h → h.pc = .ended) → s.busy = false ∧
      (s.stopping = false → Step s s.admitted)) := by
  have hsingle := hs.single
  -- Who is alive has not ended, and of those there is at most one.
  have hwork : ∀ {i h}, s.At i h → h.Alive → h.pc ≠ .ended := fun hi halive hpc ↦
    ((hsingle.sound hi).ended hpc).2 halive
  refine ⟨fun i j h h' hi hj halive halive' ↦ ?_, fun i h hi hpc ↦ ?_, fun hfree i h hi halive ↦ ?_,
    fun hended ↦ ?_⟩
  · exact hsingle.one hi hj (hwork hi halive) (hwork hj halive')
  · have hclosed := ((hsingle.sound hi).ended hpc).2
    unfold Handling.Alive at hclosed
    cases hclient : h.client with
    | none => exact .inl rfl
    | some client =>
      rw [hclient] at hclosed
      cases client with
      | inUse => exact absurd (.inl rfl) hclosed
      | closing => exact absurd (.inr rfl) hclosed
      | closed => exact .inr rfl
  · have := hsingle.busy.2 ⟨i, h, hi, hwork hi halive⟩
    rw [hfree] at this
    cases this
  · have hfree : s.busy = false := by
      by_contra hbusy
      obtain ⟨i, h, hi, hpc⟩ := hsingle.busy.1 (Bool.eq_true_of_not_eq_false hbusy)
      exact hpc (hended i h hi)
    exact ⟨hfree, fun hstopping ↦ .arrive hstopping hfree⟩

/-- A gateway that has admitted one request. -/
def solo (busy : Bool) (h : Handling) : GatewayState :=
  { busy := busy, stopping := false, handlings := [h] }

/-- The handler of the sample goes on. -/
theorem reachable_handler {busy : Bool} {h h' : Handling} (hr : (solo busy h).Reachable)
    (hstep : Handling.HandlerStep h h') :
    (solo (if h'.pc = .ended then false else busy) h').Reachable :=
  hr.tail (.handler (i := 0) rfl hstep)

/-- Its operation goes on. -/
theorem reachable_operation {busy : Bool} {h h' : Handling} (hr : (solo busy h).Reachable)
    (hstep : Handling.OperationStep h h') : (solo busy h').Reachable :=
  hr.tail (.operation (i := 0) rfl hstep)

/-- Its watcher goes on. -/
theorem reachable_watcher {busy : Bool} {h h' : Handling} (hr : (solo busy h).Reachable)
    (hstep : Handling.WatcherStep h h') : (solo busy h').Reachable :=
  hr.tail (.watcher (i := 0) rfl hstep)

/-- Something else happens. -/
theorem reachable_outside {busy : Bool} {h h' : Handling} (hr : (solo busy h).Reachable)
    (hstep : Handling.OutsideStep h h') : (solo busy h').Reachable :=
  hr.tail (.outside (i := 0) rfl hstep)

/-- A request whose client disconnected while the server was being started. -/
def disconnected : Handling :=
  { pc := .ended, cancelled := false, timedOut := false, watcher := some .done,
    operation := some ⟨.done .cancelled, false⟩, ready := false, client := some .closed }

/-- **The sample** is reached: the phone has gone while the server is being started. -/
theorem reachable_disconnected : (solo false disconnected).Reachable := by
  have h0 : (solo true .init).Reachable := .tail .refl (.arrive rfl rfl)
  have h1 := reachable_handler h0 (.bodyRead rfl ⟨rfl, rfl⟩)
  have h2 := reachable_operation h1 (.enter rfl)
  have h3 := reachable_outside h2 .disconnected
  have h4 := reachable_handler h3 (.raiseCancelled trivial rfl)
  have h5 := reachable_watcher h4 (.stopped rfl)
  have h6 := reachable_handler h5 (.watcherJoined rfl rfl)
  have h7 := reachable_operation h6 (.enterFailed rfl)
  have h8 := reachable_outside h7 (.reaped rfl)
  have h9 := reachable_operation h8 (.left rfl rfl (.inr rfl))
  refine reachable_handler h9 (.operationJoined rfl fun operation hoperation ↦ ?_)
  obtain rfl := Option.some.inj hoperation
  exact ⟨.cancelled, rfl⟩

/-- Even then it is the only one. -/
theorem one_operation_at_a_time_disconnected :
    (∀ i j h h', (solo false disconnected).At i h → (solo false disconnected).At j h' → h.Alive →
      h'.Alive → i = j) ∧
    (∀ i h, (solo false disconnected).At i h → h.pc = .ended →
      h.client = none ∨ h.client = some .closed) ∧
    ((solo false disconnected).busy = false → ∀ i h, (solo false disconnected).At i h → ¬ h.Alive) ∧
    ((∀ i h, (solo false disconnected).At i h → h.pc = .ended) →
      (solo false disconnected).busy = false ∧
        ((solo false disconnected).stopping = false →
          Step (solo false disconnected) (solo false disconnected).admitted)) :=
  one_operation_at_a_time reachable_disconnected

end GatewayState

end VibeUsage
