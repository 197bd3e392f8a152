import VibeUsage.Todo.Model

/-!
# What a valid list is

`smart_todo_valid` looks at the array; `TodoList.Valid` says the same of the items in use, as a list
(`TodoList.live`): each of them is valid for the next id, and no two have the same id.

`smartTodoValid_iff` is used to go from the code a caller sees to the list that the proofs are
about, and back.
-/

namespace VibeUsage

/-- The items in use. -/
def TodoList.live (list : TodoList) : List TodoItem := list.items.toList.take list.count.toNat

/-- What the fields of a valid item are to each other and to the next id. -/
structure TodoItem.Valid (item : TodoItem) (nextId : UInt32) : Prop where
  id_ne : item.id ≠ 0
  id_lt : item.id < nextId
  title : textValid item.title todoTitleBytes = true
  repeat_le : item.repeatSeconds ≤ todoMaxInterval
  repeat_ge : item.repeatSeconds ≠ 0 → 60 ≤ item.repeatSeconds
  due : item.dueUtc ≠ 0 → todoTimeMin ≤ item.dueUtc ∧ item.dueUtc ≤ todoTimeMax
  done : item.completed = true → item.dueUtc = 0 ∧ item.repeatSeconds = 0
  due_of_repeat : item.repeatSeconds ≠ 0 → item.dueUtc ≠ 0

/-- The check of an item is the description of a valid one. -/
theorem itemValid_iff {item : TodoItem} {nextId : UInt32} :
    itemValid item nextId = true ↔ item.Valid nextId := by
  unfold itemValid
  rw [decide_eq_true_eq]
  constructor
  · intro h
    simp only [not_or, not_and, not_not, gt_iff_lt, ge_iff_le, UInt32.not_lt, UInt32.not_le,
      Int64.not_lt] at h
    obtain ⟨h₁, h₂, h₃, h₄, h₅, h₆, h₇, h₈⟩ := h
    exact ⟨h₁, h₂, h₃, h₄, h₅, h₆, h₇, h₈⟩
  · rintro ⟨h₁, h₂, h₃, h₄, h₅, h₆, h₇, h₈⟩
    simp only [not_or, not_and, not_not, gt_iff_lt, ge_iff_le, UInt32.not_lt, UInt32.not_le,
      Int64.not_lt]
    exact ⟨h₁, h₂, h₃, h₄, h₅, h₆, h₇, h₈⟩

/-- A valid list, by the items in use. -/
structure TodoList.Valid (list : TodoList) : Prop where
  count_le : list.count.toNat ≤ todoCapacity
  nextId_ne : list.nextId ≠ 0
  items : ∀ item ∈ list.live, item.Valid list.nextId
  ids : (list.live.map (·.id)).Nodup

variable {list : TodoList}

/-- There are as many items as are counted. -/
theorem length_live (h : list.count.toNat ≤ todoCapacity) :
    list.live.length = list.count.toNat := by
  unfold TodoList.live
  rw [List.length_take, Vector.length_toList]
  exact Nat.min_eq_left h

/-- They stand at the front of the array. -/
theorem getElem_live {i : ℕ} (hi : i < list.live.length) (hi' : i < todoCapacity) :
    list.live[i] = list.items[i] := by
  have hlist : i < list.items.toList.length := by rwa [Vector.length_toList]
  calc list.live[i] = list.items.toList[i] := List.getElem_take
    _ = list.items[i] := Vector.getElem_toList _

/-- An item in use, by its index. -/
theorem mem_live_iff (h : list.count.toNat ≤ todoCapacity) {item : TodoItem} :
    item ∈ list.live ↔ ∃ i : Fin todoCapacity, i < list.count.toNat ∧ list.items[i] = item := by
  rw [List.mem_iff_getElem]
  constructor
  · rintro ⟨i, hi, rfl⟩
    rw [length_live h] at hi
    exact ⟨⟨i, by omega⟩, hi, (getElem_live _ _).symm⟩
  · rintro ⟨i, hi, rfl⟩
    have hlen : i.val < list.live.length := by rwa [length_live h]
    exact ⟨i, hlen, getElem_live hlen i.isLt⟩

/-- **`smart_todo_valid` in terms of the items in use.** -/
theorem smartTodoValid_iff : smartTodoValid list = true ↔ list.Valid := by
  unfold smartTodoValid
  rw [decide_eq_true_eq]
  constructor
  · rintro ⟨hcount, hnext, hitems⟩
    refine ⟨hcount, hnext, ?_, ?_⟩
    · intro item hitem
      obtain ⟨i, hi, rfl⟩ := (mem_live_iff hcount).1 hitem
      exact itemValid_iff.1 (hitems i hi).1
    · rw [List.nodup_iff_pairwise_ne, List.pairwise_map, List.pairwise_iff_getElem]
      intro i j hi hj hij
      rw [length_live hcount] at hi hj
      rw [getElem_live _ (by omega), getElem_live _ (by omega)]
      exact ((hitems ⟨j, by omega⟩ hj).2 ⟨i, by omega⟩ hij).symm
  · rintro ⟨hcount, hnext, hitems, hids⟩
    refine ⟨hcount, hnext, fun i hi ↦ ⟨?_, fun j hj ↦ ?_⟩⟩
    · exact itemValid_iff.2 (hitems _ ((mem_live_iff hcount).2 ⟨i, hi, rfl⟩))
    · rw [List.nodup_iff_pairwise_ne, List.pairwise_map, List.pairwise_iff_getElem] at hids
      have hj' : j.val < i.val := hj
      have hne := hids j i (by rw [length_live hcount]; omega) (by rw [length_live hcount]; omega)
        hj
      rw [getElem_live _ j.isLt, getElem_live _ i.isLt] at hne
      exact hne.symm

end VibeUsage
