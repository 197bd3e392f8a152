import VibeUsage.Todo.Action
import VibeUsage.Todo.Operations

/-!
# Parsed actions can be applied

`smart_todo_parse_action` checks a schema and `smart_todo_apply` its argument, in separate code.
`TodoAction.Applicable` is what the second asks of an action, whatever the list and the time; every
action that the first accepts is applicable (`applicable_of_candidateOf`).

`parsed_actions_applicable` is about the function on texts: no accepted text is refused as an
argument afterwards, and one that is refused leaves the caller's action alone.
-/

namespace VibeUsage

/-- What `smart_todo_apply` asks of the action alone. -/
def TodoAction.Applicable (action : TodoAction) : Prop :=
  (action.kind = .add → addValid action = true) ∧
    (action.kind = .complete ∨ action.kind = .delete → action.Plain)

/-! ### The fields of a parsed action -/

/-- A whole number is at most its bound. -/
theorem toNat_le_of_wholeNumber {max n : UInt32} {v : CJson} (h : wholeNumber max v = some n) :
    n.toNat ≤ max.toNat := by
  have hmax := max.toNat_lt
  unfold wholeNumber at h
  split at h
  · rename_i v
    split at h
    · cases h
    · rename_i hv
      obtain ⟨-, hv⟩ := not_or.1 hv
      obtain ⟨hle, -⟩ := not_or.1 hv
      obtain rfl := Option.some.inj h
      have hfloor : ⌊v⌋ ≤ (max.toNat : ℤ) := by
        rw [← Int.floor_natCast (R := ℚ)]
        exact Int.floor_le_floor (not_lt.1 hle)
      rw [UInt32.toNat_ofNat', Nat.mod_eq_of_lt (by omega)]
      omega
  · cases h

/-- A number that is taken is within its bound. -/
theorem toNat_le_of_uintField {root : List (CString × CJson)} {key : CString} {max n : UInt32}
    (h : uintField root key max = some n) : n.toNat ≤ max.toNat := by
  unfold uintField at h
  split at h
  · obtain rfl := Option.some.inj h
    exact Nat.zero_le _
  · exact toNat_le_of_wholeNumber h

/-- The ids of an array can all be asked for. -/
theorem mem_of_idsOf {items : List CJson} {ids : List UInt32} (h : idsOf items = some ids) :
    ids.length = items.length ∧ ∀ id ∈ ids, id ≠ 0 ∧ id ≠ uint32Max := by
  induction items generalizing ids with
  | nil =>
    obtain rfl := Option.some.inj h
    exact ⟨rfl, by simp⟩
  | cons item items ih =>
    rw [idsOf] at h
    obtain ⟨id, hid, h⟩ := Option.bind_eq_some_iff.1 h
    split at h
    · cases h
    rename_i hne
    obtain ⟨rest, hrest, h⟩ := Option.bind_eq_some_iff.1 h
    obtain rfl := Option.some.inj h
    obtain ⟨hlen, hall⟩ := ih hrest
    have hle := toNat_le_of_wholeNumber hid
    refine ⟨by simp [hlen], List.forall_mem_cons.2 ⟨⟨hne, ?_⟩, hall⟩⟩
    rintro rfl
    exact absurd hle (by decide)

/-- Ids that are taken are ids, and not too many. -/
theorem mem_of_idsField {root : List (CString × CJson)} {ids : List UInt32}
    (h : idsField root = some ids) :
    ids.length ≤ todoCapacity ∧ ∀ id ∈ ids, id ≠ 0 ∧ id ≠ uint32Max := by
  unfold idsField at h
  split at h
  · obtain rfl := Option.some.inj h
    exact ⟨Nat.zero_le _, by simp⟩
  · split at h
    · cases h
    · rename_i hlen
      obtain ⟨heq, hall⟩ := mem_of_idsOf h
      exact ⟨by omega, hall⟩
  · cases h

/-- What a parsed action is made of. -/
structure TodoAction.FromFields (action : TodoAction) (ids : List UInt32) : Prop where
  id_lt : action.id.toNat < 0xFFFFFFFF
  idCount : action.idCount = UInt8.ofNat ids.length
  ids_eq : action.ids = .ofFn fun i ↦ ids.getD i.val 0
  length_le : ids.length ≤ todoCapacity
  ids_ne : ∀ id ∈ ids, id ≠ 0 ∧ id ≠ uint32Max
  delay_le : action.delaySeconds.toNat ≤ todoMaxInterval.toNat
  repeat_le : action.repeatSeconds.toNat ≤ todoMaxInterval.toNat
  repeat_ge : action.repeatSeconds ≠ 0 → 60 ≤ action.repeatSeconds
  valid : candidateValid action = true

/-- **A candidate** comes from the fields of the object. -/
theorem exists_fromFields {root : List (CString × CJson)} {action : TodoAction}
    (h : candidateOf root = some action) : ∃ ids, action.FromFields ids := by
  unfold candidateOf at h
  split at h
  · cases h
  obtain ⟨kind, -, h⟩ := Option.bind_eq_some_iff.1 h
  obtain ⟨id, hid, h⟩ := Option.bind_eq_some_iff.1 h
  obtain ⟨ids, hids, h⟩ := Option.bind_eq_some_iff.1 h
  obtain ⟨delaySeconds, hdelay, h⟩ := Option.bind_eq_some_iff.1 h
  obtain ⟨repeatSeconds, hrepeat, h⟩ := Option.bind_eq_some_iff.1 h
  split at h
  · cases h
  rename_i hshort
  obtain ⟨title, -, h⟩ := Option.bind_eq_some_iff.1 h
  dsimp only at h
  split at h
  · rename_i hvalid
    obtain rfl := Option.some.inj h
    obtain ⟨hlen, hall⟩ := mem_of_idsField hids
    have hidle := toNat_le_of_uintField hid
    refine ⟨ids, ?_, rfl, rfl, hlen, hall, toNat_le_of_uintField hdelay,
      toNat_le_of_uintField hrepeat, fun hne ↦ ?_, hvalid⟩
    · exact Nat.lt_of_le_of_lt hidle (by decide)
    · exact UInt32.not_lt.1 fun hlt ↦ hshort ⟨hne, hlt⟩
  · cases h

/-! ### What `smart_todo_apply` asks for -/

/-- The ids of a parsed action are those that `smart_todo_apply` takes. -/
theorem TodoAction.FromFields.actionIdsValid {action : TodoAction} {ids : List UInt32}
    (h : action.FromFields ids) (hone : ¬ (action.id ≠ 0 ∧ action.idCount ≠ 0))
    (hsome : action.id ≠ 0 ∨ action.idCount ≠ 0) : actionIdsValid action = true := by
  have hcap : todoCapacity = 12 := rfl
  have hlength := h.length_le
  have hcount : action.idCount.toNat = ids.length := by
    rw [h.idCount, UInt8.toNat_ofNat', Nat.mod_eq_of_lt (by omega)]
  unfold VibeUsage.actionIdsValid
  rw [if_neg hone, if_neg (by omega)]
  split
  · rw [decide_eq_true_eq, UInt32.lt_iff_toNat_lt]
    exact h.id_lt
  rename_i hid
  rw [if_neg (hsome.resolve_left hid), decide_eq_true_eq]
  intro i hi
  rw [hcount] at hi
  have hmem : action.ids[i] ∈ ids := by
    rw [h.ids_eq]
    show (Vector.ofFn _)[i.val] ∈ ids
    rw [Vector.getElem_ofFn, List.getD_eq_getElem _ _ hi]
    exact List.getElem_mem hi
  obtain ⟨hzero, hmax⟩ := h.ids_ne _ hmem
  exact not_or.2 ⟨hzero, hmax⟩

/-- **Every parsed action is applicable.** -/
theorem applicable_of_candidateOf {root : List (CString × CJson)} {action : TodoAction}
    (h : candidateOf root = some action) : action.Applicable := by
  obtain ⟨ids, hfields⟩ := exists_fromFields h
  have hvalid := hfields.valid
  unfold candidateValid at hvalid
  constructor
  · intro hkind
    rw [if_pos hkind, decide_eq_true_eq, not_or, not_or, not_not, not_not, not_not] at hvalid
    obtain ⟨hid, hcount, htitle⟩ := hvalid
    exact addValid_iff.2 ⟨hid, hcount, htitle, UInt32.le_iff_toNat_le.2 hfields.delay_le,
      UInt32.le_iff_toNat_le.2 hfields.repeat_le, hfields.repeat_ge⟩
  · intro hkind
    have hadd : action.kind ≠ .add := by
      rcases hkind with hkind | hkind <;> simp [hkind]
    have hnoop : action.kind ≠ .noop := by
      rcases hkind with hkind | hkind <;> simp [hkind]
    rw [if_neg hadd, decide_eq_true_eq] at hvalid
    simp only [not_or] at hvalid
    obtain ⟨hdelay, hrepeat, htitle, hone, hsome⟩ := hvalid
    -- an action other than `noop` names an item
    have hids : action.id ≠ 0 ∨ action.idCount ≠ 0 := by
      by_contra hnone
      exact hsome ⟨fun h ↦ absurd h hnoop, fun h ↦ absurd h hnone⟩
    unfold TodoAction.Plain
    simp only [not_or, not_not]
    exact ⟨not_not.1 hdelay, not_not.1 hrepeat, not_not.1 htitle,
      hfields.actionIdsValid hone hids⟩

/-- An applicable action fails only for the list or the time. -/
theorem smartTodoApply_of_applicable {list : TodoList} {action : TodoAction} {now : Int64}
    (hvalid : smartTodoValid list = true) (h : action.Applicable) :
    (smartTodoApply list action now).1 ∈
      [none, some .noMem, some .notFound, some .invalidState] := by
  unfold smartTodoApply
  rw [if_neg (not_not.2 hvalid)]
  split
  · simp
  rename_i hnoop
  split
  · simp
  split
  · rename_i hadd
    split
    · simp
    rw [if_neg (not_not.2 (h.1 hadd))]
    split <;> simp
  rename_i hadd
  have hkind : action.kind = .complete ∨ action.kind = .delete := by
    cases hk : action.kind with
    | add => exact absurd hk hadd
    | complete => exact Or.inl rfl
    | delete => exact Or.inr rfl
    | noop => exact absurd hk hnoop
  rw [if_neg (h.2 hkind)]
  split
  · split <;> simp
  · dsimp only
    split <;> simp

/-- **Parsed actions are applicable.** The action of an accepted text is never refused by
`smart_todo_apply` as an argument, and a refused text leaves the caller's action as it was. -/
theorem parsed_actions_applicable (lib : Cjson) (json : CString) (action : TodoAction) :
    ((smartTodoParseAction lib json action).1 = none →
      ∀ list, smartTodoValid list = true → ∀ now,
        (smartTodoApply list (smartTodoParseAction lib json action).2 now).1 ∈
          [none, some .noMem, some .notFound, some .invalidState]) ∧
    ((smartTodoParseAction lib json action).1 ≠ none →
      (smartTodoParseAction lib json action).2 = action) := by
  unfold smartTodoParseAction
  split
  · exact ⟨fun h ↦ absurd h (Option.some_ne_none _), fun _ ↦ rfl⟩
  split
  · split
    · rename_i candidate hcandidate
      exact ⟨fun _ list hvalid now ↦
        smartTodoApply_of_applicable hvalid (applicable_of_candidateOf hcandidate),
        fun h ↦ absurd rfl h⟩
    · exact ⟨fun h ↦ absurd h (Option.some_ne_none _), fun _ ↦ rfl⟩
  · exact ⟨fun h ↦ absurd h (Option.some_ne_none _), fun _ ↦ rfl⟩

end VibeUsage
