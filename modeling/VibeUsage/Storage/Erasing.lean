import VibeUsage.Storage.Store

/-!
# What the erasing calls do

A call of the store is a fixed number of operations as long as none of them fails. `Does n effect p`
says what `p` has done to the flash after its `n` operations, and `Refuses n p` that it fails when
one of them does.

`does_finishReset` and its siblings give the number and the effect of each call. A fault is then
named by its position, which makes "the call fails exactly when one of its operations does" a
statement about numbers.
-/

namespace VibeUsage

/-- When the next `n` operations do not fail, `p` succeeds with this effect. -/
def Does (n : ℕ) (effect : Flash → Flash) (p : Nvs Unit) : Prop :=
  ∀ b : Board, b.powered = true → (∀ i < n, b.faults (b.tick + i) = .none) →
    p b = (.ok (), { b with flash := effect b.flash, tick := b.tick + n })

/-- When one of the next `n` operations fails, so does `p`. -/
def Refuses (n : ℕ) (p : Nvs Unit) : Prop :=
  ∀ b : Board, b.powered = true → (∃ i < n, b.faults (b.tick + i) ≠ .none) →
    ∃ error b', p b = (.error error, b')

variable {n m : ℕ} {effect effect' : Flash → Flash} {p q : Nvs Unit}

/-- Programs that do something do both, one after the other. -/
theorem Does.seq (hp : Does n effect p) (hq : Does m effect' q) :
    Does (n + m) (effect' ∘ effect) (p >>= fun _ ↦ q) := by
  intro b hpower hfaults
  rw [Prog.bind_of_ok (hp b hpower fun i hi ↦ hfaults i (by omega))]
  have hq' := hq { b with flash := effect b.flash, tick := b.tick + n } hpower fun i hi ↦ by
    have := hfaults (n + i) (by omega)
    rwa [← Nat.add_assoc] at this
  rw [hq']
  simp [Nat.add_assoc]

/-- **A sequence refuses** when the fault falls into either part. -/
theorem Refuses.seq (hp : Does n effect p) (hrefuse : Refuses n p) (hq : Refuses m q) :
    Refuses (n + m) (p >>= fun _ ↦ q) := by
  rintro b hpower ⟨i, hi, hfault⟩
  by_cases hfirst : ∃ j < n, b.faults (b.tick + j) ≠ .none
  · obtain ⟨error, b', hrun⟩ := hrefuse b hpower hfirst
    exact ⟨error, b', Prog.bind_of_error hrun⟩
  · have hnone : ∀ j < n, b.faults (b.tick + j) = .none := fun j hj ↦
      by_contra fun h ↦ hfirst ⟨j, hj, h⟩
    have hge : n ≤ i := by
      by_contra hlt
      exact hfault (hnone i (by omega))
    rw [Prog.bind_of_ok (hp b hpower hnone)]
    refine hq _ hpower ⟨i - n, by omega, ?_⟩
    show b.faults (b.tick + n + (i - n)) ≠ .none
    rwa [show b.tick + n + (i - n) = b.tick + i by omega]

/-! ### One operation -/

/-- Without a fault an operation does what it is for. -/
theorem operate_of_none {torn : Flash → Flash} {error : EspErr} {b : Board}
    (hpower : b.powered = true) (hfault : b.faults b.tick = .none) :
    operate effect torn error b = (.ok (), b.leaves (effect b.flash)) := by
  unfold operate
  rw [if_pos hpower, hfault]

/-- Every fault, and a lack of power, is reported. -/
theorem operate_of_fault (effect torn : Flash → Flash) (error : EspErr) {b : Board}
    (h : b.powered = false ∨ b.faults b.tick ≠ .none) :
    ∃ b', operate effect torn error b = (.error error, b') := by
  unfold operate
  split
  · rename_i hpower
    cases hfault : b.faults b.tick with
    | none => simp [hpower, hfault] at h
    | fails => exact ⟨_, rfl⟩
    | lands => exact ⟨_, rfl⟩
    | tears => exact ⟨_, rfl⟩
    | cut => exact ⟨_, rfl⟩
  · exact ⟨_, rfl⟩

/-- One operation does what it is for. -/
theorem does_operate (effect torn : Flash → Flash) (error : EspErr) :
    Does 1 effect (operate effect torn error) :=
  fun _ hpower hfaults ↦ operate_of_none hpower (hfaults 0 Nat.one_pos)

/-- One operation refuses on a fault. -/
theorem refuses_operate (effect torn : Flash → Flash) (error : EspErr) :
    Refuses 1 (operate effect torn error) := by
  rintro b - ⟨i, hi, hfault⟩
  obtain rfl : i = 0 := by omega
  obtain ⟨b', hrun⟩ := operate_of_fault effect torn error (Or.inr hfault)
  exact ⟨error, b', hrun⟩

/-- A key that is not there is as good as erased. -/
theorem does_eraseKey (space : Namespace) (key : NvsKey) :
    Does 1 (·.erase space key) (ignoreNotFound (nvsEraseKey space key)) := by
  intro b hpower hfaults
  have hrun : (nvsEraseKey space key).attempt b =
      (.ok (if b.flash.lookup space key = none then .error .nvsNotFound else .ok ()),
        b.leaves (b.flash.erase space key)) := by
    rw [Prog.attempt_apply, nvsEraseKey, Prog.bind_of_ok (Prog.get_apply b),
      Prog.bind_of_ok (operate_of_none hpower (hfaults 0 Nat.one_pos))]
    split
    · rename_i hmissing
      rw [Prog.check_of_neg (not_not.2 hmissing)]
      rfl
    · rename_i hthere
      rw [Prog.check_of_pos hthere]
      rfl
  rw [ignoreNotFound, Prog.bind_of_ok hrun]
  split
  · rfl
  · rfl

/-- An erasure refuses on a fault: that there was no entry is no excuse then. -/
theorem refuses_eraseKey (space : Namespace) (key : NvsKey) :
    Refuses 1 (ignoreNotFound (nvsEraseKey space key)) := by
  rintro b - ⟨i, hi, hfault⟩
  obtain rfl : i = 0 := by omega
  obtain ⟨b', hrun⟩ := operate_of_fault (·.erase space key) id .nvs (Or.inr hfault)
  have herase : (nvsEraseKey space key).attempt b = (.ok (.error .nvs), b') := by
    rw [Prog.attempt_apply, nvsEraseKey, Prog.bind_of_ok (Prog.get_apply b),
      Prog.bind_of_error hrun]
  exact ⟨.nvs, b', by rw [ignoreNotFound, Prog.bind_of_ok herase]; rfl⟩

/-- The part after `nvs_open`. -/
theorem Does.opened {space : Namespace} (hp : Does n effect p) :
    Does (1 + n) (effect ∘ (·.create space)) (ifFound (nvsOpen space) p) := by
  intro b hpower hfaults
  have hopen : (nvsOpen space).attempt b = (.ok (.ok ()), b.leaves (b.flash.create space)) := by
    rw [Prog.attempt_apply, nvsOpen, operate_of_none hpower (hfaults 0 (by omega))]
  rw [ifFound, Prog.bind_of_ok hopen]
  refine (hp (b.leaves (b.flash.create space)) hpower fun i hi ↦ ?_).trans ?_
  · have := hfaults (1 + i) (by omega)
    rwa [← Nat.add_assoc] at this
  · simp [Board.leaves, Nat.add_assoc]

/-- A program in a namespace that is opened first. -/
theorem Refuses.opened {space : Namespace} (hp : Refuses n p) :
    Refuses (1 + n) (ifFound (nvsOpen space) p) := by
  rintro b hpower ⟨i, hi, hfault⟩
  by_cases hfirst : b.faults b.tick = .none
  · have hopen : (nvsOpen space).attempt b = (.ok (.ok ()), b.leaves (b.flash.create space)) := by
      rw [Prog.attempt_apply, nvsOpen, operate_of_none hpower hfirst]
    have hpos : 0 < i := by
      rcases Nat.eq_zero_or_pos i with rfl | h
      · exact absurd hfirst hfault
      · exact h
    rw [ifFound, Prog.bind_of_ok hopen]
    refine hp _ hpower ⟨i - 1, by omega, ?_⟩
    show b.faults (b.tick + 1 + (i - 1)) ≠ .none
    rwa [show b.tick + 1 + (i - 1) = b.tick + i by omega]
  · obtain ⟨b', hrun⟩ := operate_of_fault (·.create space) id .nvs (Or.inr hfirst)
    have hopen : (nvsOpen space).attempt b = (.ok (.error .nvs), b') := by
      rw [Prog.attempt_apply, nvsOpen, hrun]
    exact ⟨.nvs, b', by rw [ifFound, Prog.bind_of_ok hopen]; rfl⟩

/-- Two keys of one namespace. -/
theorem does_eraseBoth (space : Namespace) (first second : NvsKey) :
    Does 2 (fun f ↦ (f.erase space first).erase space second) (eraseBoth space first second) := by
  intro b hpower hfaults
  have hfirst := does_eraseKey space first b hpower fun i hi ↦ hfaults i (by omega)
  have hsecond := does_eraseKey space second
    { b with flash := b.flash.erase space first, tick := b.tick + 1 } hpower fun i hi ↦ by
      obtain rfl : i = 0 := by omega
      exact hfaults 1 (by omega)
  have hattempt : (ignoreNotFound (nvsEraseKey space first)).attempt b =
      (.ok (.ok ()), { b with flash := b.flash.erase space first, tick := b.tick + 1 }) := by
    rw [Prog.attempt_apply, hfirst]
  rw [eraseBoth, Prog.bind_of_ok hattempt, Prog.bind_of_ok (by rw [Prog.attempt_apply, hsecond])]
  rfl

/-! ### The steps of a factory reset -/

/-- The journal is written in three operations. -/
theorem does_beginReset : Does 3 (fun f ↦ (f.create .vibeMeta).put .vibeMeta .reset (.u8 1))
    vibeStoreBeginReset :=
  (does_operate _ _ _).seq ((does_operate _ _ _).seq (does_operate _ _ _))

/-- If one of them fails, so does the call. -/
theorem refuses_beginReset : Refuses 3 vibeStoreBeginReset :=
  .seq (does_operate _ _ _) (refuses_operate _ _ _)
    (.seq (does_operate _ _ _) (refuses_operate _ _ _) (refuses_operate _ _ _))

/-- A namespace is emptied in three operations. -/
theorem does_eraseNamespace (name : Namespace) :
    Does 3 (fun f ↦ (f.create name).eraseAll name) (eraseNamespace name) :=
  ((does_operate _ _ _).seq (does_operate _ _ _)).opened

/-- If one of them fails, so does the call. -/
theorem refuses_eraseNamespace (name : Namespace) : Refuses 3 (eraseNamespace name) :=
  (Refuses.seq (does_operate _ _ _) (refuses_operate _ _ _) (refuses_operate _ _ _)).opened

/-- The deadline is forgotten in three operations. -/
theorem does_clearRetryNotBefore :
    Does 3 (fun f ↦ (f.create .vibeMeta).erase .vibeMeta .retry) vibeStoreClearRetryNotBefore :=
  ((does_eraseKey _ _).seq (does_operate _ _ _)).opened

theorem refuses_clearRetryNotBefore : Refuses 3 vibeStoreClearRetryNotBefore :=
  (Refuses.seq (does_eraseKey _ _) (refuses_eraseKey _ _) (refuses_operate _ _ _)).opened

/-- The namespaces and the deadline that `vibe_store_finish_reset` erases. -/
def eraseLocal (flash : Flash) : Flash :=
  let flash := (flash.create .vibeAuth).eraseAll .vibeAuth
  let flash := (flash.create .vibeCache).eraseAll .vibeCache
  let flash := (flash.create .vibeCfg).eraseAll .vibeCfg
  (flash.create .vibeMeta).erase .vibeMeta .retry

/-- **The local part of a reset** takes twelve operations. -/
theorem does_finishReset : Does 12 eraseLocal vibeStoreFinishReset :=
  (does_eraseNamespace _).seq ((does_eraseNamespace _).seq ((does_eraseNamespace _).seq
    does_clearRetryNotBefore))

/-- A fault in any of them is reported. -/
theorem refuses_finishReset : Refuses 12 vibeStoreFinishReset :=
  .seq (does_eraseNamespace _) (refuses_eraseNamespace _) (.seq (does_eraseNamespace _)
    (refuses_eraseNamespace _) (.seq (does_eraseNamespace _) (refuses_eraseNamespace _)
      refuses_clearRetryNotBefore))

/-- The TODO list is erased in three operations. -/
theorem does_smartTodoClear :
    Does 3 (fun f ↦ (f.create .vibeTodo).eraseAll .vibeTodo) smartTodoClear :=
  (does_operate _ _ _).seq ((does_operate _ _ _).seq (does_operate _ _ _))

/-- The settings of the language model are erased in four. -/
theorem does_llmSettingsClear :
    Does 4 (fun f ↦ ((f.create .vibeLlm).erase .vibeLlm .settings).erase .vibeLlm .asrLang)
      llmSettingsClear :=
  ((does_eraseBoth _ _ _).seq (does_operate _ _ _)).opened

/-- A round for each of the indices. -/
theorem does_eraseCredentials (indices : List (Fin maxWifiSsidCount)) :
    Does (2 * indices.length)
      (fun f ↦ indices.foldl (fun f index ↦ (f.erase .wifi (.ssid index)).erase .wifi
        (.password index)) f) (indices.forM eraseCredential) := by
  induction indices with
  | nil =>
    intro b _ _
    rfl
  | cons index indices ih =>
    have h := (does_eraseBoth .wifi (.ssid index) (.password index)).seq ih
    rwa [List.length_cons, Nat.mul_add, Nat.add_comm (2 * indices.length)]

/-- The credentials `SsidManager::SaveToNvs` erases. -/
def eraseCredentials (flash : Flash) : Flash :=
  (List.finRange maxWifiSsidCount).foldl (fun f index ↦
    (f.erase .wifi (.ssid index)).erase .wifi (.password index)) (flash.create .wifi)

/-- Ten networks of two entries each, an open and a commit. -/
theorem does_clearCredentials : Does 22 eraseCredentials wifiAdapterClearCredentials := by
  have hrounds := does_eraseCredentials (List.finRange maxWifiSsidCount)
  rw [List.length_finRange] at hrounds
  exact (does_operate _ _ _).seq (hrounds.seq (does_operate _ _ _))

/-- The entries of the credentials are gone, the others are as they were. -/
theorem lookup_eraseCredentials (flash : Flash) (space : Namespace) (key : NvsKey) :
    (eraseCredentials flash).lookup space key =
      if space = .wifi ∧ (∃ index, key = .ssid index ∨ key = .password index) then none
      else flash.lookup space key := by
  have hrounds : ∀ (indices : List (Fin maxWifiSsidCount)) (f : Flash),
      (indices.foldl (fun f index ↦
        (f.erase .wifi (.ssid index)).erase .wifi (.password index)) f).lookup space key =
      if space = .wifi ∧ (∃ index ∈ indices, key = .ssid index ∨ key = .password index) then none
      else f.lookup space key := by
    intro indices
    induction indices with
    | nil =>
      intro f
      simp
    | cons index indices ih =>
      intro f
      rw [List.foldl_cons, ih, Flash.lookup_erase, Flash.lookup_erase]
      by_cases hspace : space = .wifi <;> by_cases hssid : key = .ssid index <;>
        by_cases hpassword : key = .password index <;> simp [hspace, hssid, hpassword]
  rw [eraseCredentials, hrounds, Flash.lookup_create]
  simp

/-- The journal is taken back in three operations. -/
theorem does_completeReset :
    Does 3 (fun f ↦ (f.create .vibeMeta).erase .vibeMeta .reset) vibeStoreCompleteReset :=
  ((does_eraseKey _ _).seq (does_operate _ _ _)).opened

end VibeUsage
