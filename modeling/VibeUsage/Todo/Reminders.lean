import VibeUsage.Lib.Agenda
import VibeUsage.Todo.Operations

/-!
# Reminders drain

`smart_todo_due` names the item to remind of and `smart_todo_reminded` moves its deadline. Over the
items in use that is one step of an `Agenda` (`run_remindAll`), so the reminders of a moment come to
an end, in the order of the deadlines.

`smartTodoDue_spec` is the search, `deadline_settle` the new deadline. `reminders_drain` is the
result; that there is room for the revisions and that no deadline leaves its range are assumed, as
the operations would refuse the list otherwise.
-/

namespace VibeUsage

open Agenda (IsNext Run settleAt)

variable {list : TodoList} {now : Int64}

/-- `smart_todo_due` and `smart_todo_reminded` in turn, at most `n` times: the ids reminded of, and
the list. -/
def remindAll (now : Int64) : ℕ → TodoList → List UInt32 × TodoList
  | 0, list => ([], list)
  | n + 1, list =>
    if smartTodoDue list now = 0 then ([], list)
    else
      match smartTodoReminded list (smartTodoDue list now) now with
      | (none, after) =>
        (smartTodoDue list now :: (remindAll now n after).1, (remindAll now n after).2)
      | (some _, after) => ([], after)

/-- The item after its reminder. -/
def TodoItem.settle (now : Int64) (item : TodoItem) : TodoItem :=
  { item with dueUtc := if item.repeatSeconds = 0 then 0 else nextDue item now }

@[simp] theorem TodoItem.id_settle (now : Int64) (item : TodoItem) :
    (item.settle now).id = item.id := rfl

/-- The deadline of an item, as a number. -/
def TodoItem.deadline (item : TodoItem) : ℤ := item.dueUtc.toInt

/-- An item is due when it is open and its deadline has come. -/
theorem itemDue_iff {item : TodoItem} : itemDue item now = true ↔
    item.completed = false ∧ item.dueUtc ≠ 0 ∧ item.dueUtc ≤ now := by
  unfold itemDue
  rw [decide_eq_true_eq, Bool.not_eq_true]

/-- A settled item is not due at the same moment. -/
theorem itemDue_settle {item : TodoItem} {nextId : UInt32} (h : item.Valid nextId)
    (hmax : now ≤ todoTimeMax) (hdue : itemDue item now = true) :
    itemDue (item.settle now) now = false := by
  obtain ⟨-, hne, hpast⟩ := itemDue_iff.1 hdue
  rw [← Bool.not_eq_true, itemDue_iff]
  rintro ⟨-, hne', hpast'⟩
  unfold TodoItem.settle at hne' hpast'
  dsimp only at hne' hpast'
  split at hne'
  · exact hne' rfl
  · rename_i hrepeat
    rw [if_neg hrepeat] at hpast'
    have hmin := (h.due hne).1
    rw [Int64.le_iff_toInt_le] at hmin
    have hmin' : todoTimeMin.toInt = 1704067200 := rfl
    have hnext := nextDeadline_nextDue (by omega) hpast hmax hrepeat
    unfold NextDeadline at hnext
    rw [if_neg hrepeat] at hnext
    obtain ⟨-, -, -, hahead, -⟩ := hnext
    rw [Int64.le_iff_toInt_le] at hpast'
    omega

/-! ### smart_todo_due -/

/-- An index that the loop of `smart_todo_due` may choose. -/
def Candidate (list : TodoList) (now : Int64) (i : Fin todoCapacity) : Prop :=
  i < list.count.toNat ∧ itemDue list.items[i] now = true

/-- The loop has seen these indices and keeps one of them with the least deadline. -/
structure Earliest (list : TodoList) (now : Int64) (seen : List (Fin todoCapacity))
    (first : Option (Fin todoCapacity)) : Prop where
  candidate : ∀ i ∈ first, Candidate list now i
  le : ∀ j ∈ seen, Candidate list now j →
    ∃ i ∈ first, list.items[i].deadline ≤ list.items[j].deadline

/-- One more item is looked at. -/
theorem Earliest.dueStep {seen : List (Fin todoCapacity)} {first : Option (Fin todoCapacity)}
    (h : Earliest list now seen first) (i : Fin todoCapacity) :
    Earliest list now (seen ++ [i]) (dueStep list now first i) := by
  unfold VibeUsage.dueStep
  split
  · rename_i hi
    obtain ⟨hcount, hdue, hless⟩ := hi
    refine ⟨fun i' hi' ↦ ?_, fun j hj hcandidate ↦ ⟨i, rfl, ?_⟩⟩
    · obtain rfl := Option.some.inj hi'
      exact ⟨hcount, hdue⟩
    · rcases List.mem_append.1 hj with hj | hj
      · obtain ⟨i₀, hi₀, hle⟩ := h.le j hj hcandidate
        exact (Int.le_of_lt (Int64.lt_iff_toInt_lt.1 (hless i₀ hi₀))).trans hle
      · obtain rfl := List.mem_singleton.1 hj
        exact le_rfl
  · rename_i hi
    refine ⟨h.candidate, fun j hj hcandidate ↦ ?_⟩
    rcases List.mem_append.1 hj with hj | hj
    · exact h.le j hj hcandidate
    · obtain rfl := List.mem_singleton.1 hj
      have hnot : ¬ ∀ j' ∈ first, list.items[j].dueUtc < list.items[j'].dueUtc :=
        fun hless ↦ hi ⟨hcandidate.1, hcandidate.2, hless⟩
      push Not at hnot
      obtain ⟨i₀, hi₀, hle⟩ := hnot
      exact ⟨i₀, hi₀, Int64.le_iff_toInt_le.1 (Int64.not_lt.1 hle)⟩

/-- **All items are looked at.** -/
theorem Earliest.foldl {seen : List (Fin todoCapacity)} {first : Option (Fin todoCapacity)}
    (h : Earliest list now seen first) (indices : List (Fin todoCapacity)) :
    Earliest list now (seen ++ indices) (indices.foldl (VibeUsage.dueStep list now) first) := by
  induction indices generalizing seen first with
  | nil => simpa using h
  | cons i indices ih =>
    have hrest := ih (h.dueStep i)
    rwa [List.append_assoc, List.singleton_append] at hrest

/-- **The item to remind of** is due, and none is due before it. -/
theorem smartTodoDue_spec (hvalid : list.Valid) (hmin : todoTimeMin ≤ now)
    (hmax : now ≤ todoTimeMax) :
    (smartTodoDue list now = 0 ∧ ∀ item ∈ list.live, itemDue item now = false) ∨
    ∃ i : Fin todoCapacity, i < list.count.toNat ∧ smartTodoDue list now = list.items[i].id ∧
      IsNext (itemDue · now) TodoItem.deadline list.live list.items[i] := by
  -- The loop keeps the earliest item it has seen that is due.
  have hfold : Earliest list now ([] ++ List.finRange todoCapacity)
      ((List.finRange todoCapacity).foldl (dueStep list now) none) := by
    refine Earliest.foldl ⟨fun i hi ↦ ?_, fun j hj ↦ ?_⟩ _
    · cases hi
    · cases hj
  have hguard : ¬ (¬ smartTodoValid list ∨ now < todoTimeMin ∨ now > todoTimeMax) := by
    rintro (h | h | h)
    · exact h (smartTodoValid_iff.2 hvalid)
    · exact absurd h (Int64.not_lt.2 hmin)
    · exact absurd h (Int64.not_lt.2 hmax)
  have hseen : ∀ i : Fin todoCapacity, i ∈ [] ++ List.finRange todoCapacity :=
    fun i ↦ List.mem_finRange i
  unfold smartTodoDue
  rw [if_neg hguard]
  cases hfirst : (List.finRange todoCapacity).foldl (dueStep list now) none with
  | none =>
    rw [hfirst] at hfold
    refine Or.inl ⟨rfl, fun item hitem ↦ ?_⟩
    obtain ⟨j, hj, rfl⟩ := (mem_live_iff hvalid.count_le).1 hitem
    rw [← Bool.not_eq_true]
    intro hdue
    obtain ⟨i, hi, -⟩ := hfold.le j (hseen j) ⟨hj, hdue⟩
    cases hi
  | some i =>
    rw [hfirst] at hfold
    obtain ⟨hcount, hdue⟩ := hfold.candidate i rfl
    refine Or.inr ⟨i, hcount, rfl, (mem_live_iff hvalid.count_le).2 ⟨i, hcount, rfl⟩, hdue, ?_⟩
    intro item hitem hitem'
    obtain ⟨j, hj, rfl⟩ := (mem_live_iff hvalid.count_le).1 hitem
    obtain ⟨i', hi', hle⟩ := hfold.le j (hseen j) ⟨hj, hitem'⟩
    obtain rfl := Option.some.inj hi'
    exact hle

/-! ### smart_todo_reminded -/

/-- Ids are different, so the item is found by its own. -/
theorem itemWithId_eq (hvalid : list.Valid) {i : Fin todoCapacity} (hi : i < list.count.toNat) :
    itemWithId list list.items[i].id = some i := by
  have hsome : (itemWithId list list.items[i].id).isSome := by
    unfold itemWithId
    rw [List.find?_isSome]
    exact ⟨i, List.mem_finRange i, decide_eq_true ⟨hi, rfl⟩⟩
  obtain ⟨j, hj⟩ := Option.isSome_iff_exists.1 hsome
  obtain ⟨hcount, hid⟩ := itemWithId_eq_some hj
  have hi' : i.val < list.live.length := by rwa [length_live hvalid.count_le]
  have hj' : j.val < list.live.length := by rwa [length_live hvalid.count_le]
  have hids : (list.live.map (·.id))[j.val]? = (list.live.map (·.id))[i.val]? := by
    rw [List.getElem?_map, List.getElem?_map, List.getElem?_eq_getElem hi',
      List.getElem?_eq_getElem hj', getElem_live hi' i.isLt, getElem_live hj' j.isLt]
    exact congrArg some hid
  rw [hj, Fin.ext ((List.getElem?_inj (by rwa [List.length_map]) hvalid.ids).1 hids)]

/-- The list after the reminder of the item at an index. -/
def TodoList.remindedAt (list : TodoList) (now : Int64) (i : Fin todoCapacity) : TodoList :=
  (list.setDue i (list.items[i].settle now).dueUtc).revised

/-- The reminder of a due item succeeds. -/
theorem smartTodoReminded_of_due (hvalid : list.Valid) (hmin : todoTimeMin ≤ now)
    (hmax : now ≤ todoTimeMax) (hrevision : list.revision ≠ uint32Max) {i : Fin todoCapacity}
    (hi : i < list.count.toNat) (hdue : itemDue list.items[i] now = true)
    (hnext : list.items[i].repeatSeconds ≠ 0 → nextDue list.items[i] now ≤ todoTimeMax) :
    smartTodoReminded list list.items[i].id now = (none, list.remindedAt now i) := by
  have hguard : ¬ (¬ smartTodoValid list ∨ now < todoTimeMin ∨ now > todoTimeMax ∨
      list.revision = uint32Max) := by
    rintro (h | h | h | h)
    · exact h (smartTodoValid_iff.2 hvalid)
    · exact absurd h (Int64.not_lt.2 hmin)
    · exact absurd h (Int64.not_lt.2 hmax)
    · exact hrevision h
  obtain ⟨hdone, hne, hpast⟩ := itemDue_iff.1 hdue
  have hitem : ¬ (list.items[i].completed = true ∨ list.items[i].dueUtc = 0 ∨
      list.items[i].dueUtc > now) := by
    rintro (h | h | h)
    · rw [hdone] at h
      cases h
    · exact hne h
    · exact absurd h (Int64.not_lt.2 hpast)
  unfold smartTodoReminded
  rw [if_neg hguard, itemWithId_eq hvalid hi]
  dsimp only
  rw [if_neg hitem]
  unfold TodoList.remindedAt TodoItem.settle
  split
  · rename_i hrepeat
    rw [if_neg (Int64.not_lt.2 (hnext hrepeat))]
  · rename_i hrepeat
    rw [if_pos (not_not.1 hrepeat)]

/-- A reminder settles one item. -/
theorem live_remindedAt (hvalid : list.Valid) {i : Fin todoCapacity}
    (hi : i < list.count.toNat) : (list.remindedAt now i).live =
      settleAt TodoItem.id (TodoItem.settle now) list.items[i].id list.live := by
  rw [TodoList.remindedAt, live_revised, live_setDue hvalid hi, settleAt]
  refine List.map_congr_left fun item hitem ↦ ?_
  split
  · rename_i hid
    have hmem : list.items[i] ∈ list.live := (mem_live_iff hvalid.count_le).2 ⟨i, hi, rfl⟩
    rw [Agenda.eq_of_key_eq hvalid.ids hitem hmem hid]
    rfl
  · rfl

/-! ### All of them -/

/-- What the reminders of a moment need: a revision for each, and deadlines that can be kept. -/
structure TodoList.Remindable (list : TodoList) (now : Int64) : Prop where
  valid : list.Valid
  revision : list.revision.toNat + (list.live.filter (itemDue · now)).length ≤ 0xFFFFFFFF
  next : ∀ item ∈ list.live, itemDue item now = true → item.repeatSeconds ≠ 0 →
    nextDue item now ≤ todoTimeMax

/-- **An item that has been reminded** is not due any more. -/
theorem TodoList.Remindable.settles (h : list.Remindable now) (hmax : now ≤ todoTimeMax) :
    ∀ item ∈ list.live, itemDue item now = true → itemDue (item.settle now) now = false :=
  fun item hitem ↦ itemDue_settle (h.valid.items item hitem) hmax

/-- One reminder leaves one item fewer to remind of, and the rest can still be reminded of. -/
theorem TodoList.Remindable.step (h : list.Remindable now) (hmin : todoTimeMin ≤ now)
    (hmax : now ≤ todoTimeMax) {i : Fin todoCapacity} (hi : i < list.count.toNat)
    (hdue : itemDue list.items[i] now = true) :
    smartTodoReminded list list.items[i].id now = (none, list.remindedAt now i) ∧
      (list.remindedAt now i).Remindable now ∧
      (list.live.filter (itemDue · now)).length =
        ((list.remindedAt now i).live.filter (itemDue · now)).length + 1 := by
  have hmem : list.items[i] ∈ list.live := (mem_live_iff h.valid.count_le).2 ⟨i, hi, rfl⟩
  have hlive : (list.remindedAt now i).live = _ := live_remindedAt h.valid hi
  have hlength : (list.live.filter (itemDue · now)).length =
      ((list.remindedAt now i).live.filter (itemDue · now)).length + 1 := by
    have hperm : (list.live.filter (itemDue · now)).Perm (list.items[i] ::
        (settleAt TodoItem.id (TodoItem.settle now) list.items[i].id list.live).filter
          (itemDue · now)) :=
      Agenda.perm_filter_settleAt (TodoItem.id_settle now) h.valid.ids hmem hdue
        (h.settles hmax _ hmem hdue)
    rw [hlive]
    exact hperm.length_eq
  have hrevision : list.revision ≠ uint32Max := by
    intro heq
    have hle := h.revision
    rw [heq, show uint32Max.toNat = 0xFFFFFFFF from rfl] at hle
    omega
  have hstep := smartTodoReminded_of_due h.valid hmin hmax hrevision hi hdue (h.next _ hmem hdue)
  rcases steps_smartTodoReminded h.valid list.items[i].id now with ⟨error, herror⟩ | hsuccess
  · rw [hstep] at herror
    cases (Prod.mk.inj herror).1
  obtain ⟨after, hafter, hvalid, hcount, -⟩ := hsuccess
  rw [hstep] at hafter
  obtain rfl := (Prod.mk.inj hafter).2
  refine ⟨hstep, ⟨smartTodoValid_iff.1 hvalid, ?_, ?_⟩, hlength⟩
  · rw [hcount]
    have hle := h.revision
    omega
  · intro item hitem hitem'
    rw [hlive] at hitem
    rcases (Agenda.mem_settleAt h.valid.ids hmem).1 hitem with rfl | ⟨hitem, -⟩
    · rw [h.settles hmax _ hmem hdue] at hitem'
      cases hitem'
    · exact h.next item hitem hitem'

/-- **The reminders of a moment are a run of the agenda.** -/
theorem run_remindAll (hmin : todoTimeMin ≤ now) (hmax : now ≤ todoTimeMax) (n : ℕ)
    (h : list.Remindable now) (hn : (list.live.filter (itemDue · now)).length ≤ n) :
    smartTodoValid (remindAll now n list).2 = true ∧
      smartTodoDue (remindAll now n list).2 now = 0 ∧
      ∃ taken, (remindAll now n list).1 = taken.map TodoItem.id ∧
        Run TodoItem.id (itemDue · now) TodoItem.deadline (TodoItem.settle now) list.live taken
          (remindAll now n list).2.live := by
  induction n generalizing list with
  | zero =>
    have hnone : ∀ item ∈ list.live, itemDue item now = false := by
      have hnil := List.filter_eq_nil_iff.1 (List.length_eq_zero_iff.1 (Nat.le_zero.1 hn))
      exact fun item hitem ↦ Bool.eq_false_of_not_eq_true (hnil item hitem)
    rcases smartTodoDue_spec h.valid hmin hmax with ⟨hzero, -⟩ | ⟨i, -, -, hnext⟩
    · exact ⟨smartTodoValid_iff.2 h.valid, hzero, [], rfl, .stop hnone⟩
    · have hdue := hnext.isDue
      rw [hnone _ hnext.mem] at hdue
      cases hdue
  | succ n ih =>
    rcases smartTodoDue_spec h.valid hmin hmax with ⟨hzero, hnone⟩ | ⟨i, hi, hid, hnext⟩
    · rw [remindAll, if_pos hzero]
      exact ⟨smartTodoValid_iff.2 h.valid, hzero, [], rfl, .stop hnone⟩
    · obtain ⟨hstep, hafter, hlength⟩ := h.step hmin hmax hi hnext.isDue
      obtain ⟨hvalid, hzero, taken, htaken, hrun⟩ := ih hafter (by omega)
      have hne : list.items[i].id ≠ 0 := (h.valid.items _ hnext.mem).id_ne
      rw [remindAll, hid, if_neg hne, hstep]
      dsimp only
      refine ⟨hvalid, hzero, list.items[i] :: taken, by rw [htaken, List.map_cons], ?_⟩
      rw [live_remindedAt h.valid hi] at hrun
      exact .next hnext hrun

/-- The new deadline of a repeated item is the first in its rhythm that lies ahead. -/
theorem deadline_settle {item : TodoItem} {nextId : UInt32} (h : item.Valid nextId)
    (hmax : now ≤ todoTimeMax) (hdue : itemDue item now = true) (hrepeat : item.repeatSeconds ≠ 0) :
    ∃ steps : ℕ, (item.settle now).deadline =
        item.deadline + steps * item.repeatSeconds.toNat ∧
      now.toInt < (item.settle now).deadline ∧
      ∀ k : ℕ, now.toInt < item.deadline + k * item.repeatSeconds.toNat → steps ≤ k := by
  obtain ⟨-, hne, hpast⟩ := itemDue_iff.1 hdue
  have hmin := (h.due hne).1
  have hmin' : todoTimeMin.toInt = 1704067200 := rfl
  rw [Int64.le_iff_toInt_le] at hmin
  have hnext := nextDeadline_nextDue (by omega) hpast hmax hrepeat
  unfold NextDeadline at hnext
  rw [if_neg hrepeat] at hnext
  obtain ⟨steps, -, hsteps, hahead, hfirst⟩ := hnext
  have hsettle : (item.settle now).deadline = (nextDue item now).toInt := by
    unfold TodoItem.settle TodoItem.deadline
    rw [if_neg hrepeat]
  rw [hsettle]
  refine ⟨steps, hsteps, hahead, fun k hk ↦ ?_⟩
  -- one period less would not lie ahead
  by_contra hlt
  have hle : (k + 1) * item.repeatSeconds.toNat ≤ steps * item.repeatSeconds.toNat :=
    Nat.mul_le_mul_right _ (Nat.lt_of_not_le hlt)
  rw [Nat.add_mul, Nat.one_mul] at hle
  unfold TodoItem.deadline at hk
  have hle' : (k * item.repeatSeconds.toNat + item.repeatSeconds.toNat : ℤ) ≤
      steps * item.repeatSeconds.toNat := by exact_mod_cast hle
  omega

/-- **Reminders drain.** Reminding of what `smart_todo_due` names ends after as many reminders as
items are due; they come in the order of the deadlines, each item once. A repeated item is due again
at the first time in its rhythm after now, another has no deadline any more, and what was not due is
as it was. -/
theorem reminders_drain (list : TodoList) (now : Int64) (hvalid : smartTodoValid list = true)
    (hmin : todoTimeMin ≤ now) (hmax : now ≤ todoTimeMax)
    (hrevision : list.revision.toNat + (list.live.filter (itemDue · now)).length ≤ 0xFFFFFFFF)
    (hnext : ∀ item ∈ list.live, itemDue item now = true → item.repeatSeconds ≠ 0 →
      nextDue item now ≤ todoTimeMax)
    (n : ℕ) (hn : (list.live.filter (itemDue · now)).length ≤ n) :
    smartTodoValid (remindAll now n list).2 = true ∧
    smartTodoDue (remindAll now n list).2 now = 0 ∧
    (remindAll now n list).1.length = (list.live.filter (itemDue · now)).length ∧
    (∃ taken : List TodoItem, (remindAll now n list).1 = taken.map TodoItem.id ∧
      taken.Perm (list.live.filter (itemDue · now)) ∧
      taken.Pairwise fun item item' ↦ item.deadline ≤ item'.deadline) ∧
    (remindAll now n list).1.Nodup ∧
    (remindAll now n list).2.live =
      list.live.map (fun item ↦ if itemDue item now then item.settle now else item) ∧
    ∀ item ∈ list.live, itemDue item now = true →
      (item.repeatSeconds = 0 → (item.settle now).dueUtc = 0) ∧
      (item.repeatSeconds ≠ 0 → ∃ steps : ℕ,
        (item.settle now).deadline = item.deadline + steps * item.repeatSeconds.toNat ∧
        now.toInt < (item.settle now).deadline ∧
        ∀ k : ℕ, now.toInt < item.deadline + k * item.repeatSeconds.toNat → steps ≤ k) := by
  have h : list.Valid := smartTodoValid_iff.1 hvalid
  have hremindable : list.Remindable now := ⟨h, hrevision, hnext⟩
  obtain ⟨hvalid', hzero, taken, htaken, hrun⟩ := run_remindAll hmin hmax n hremindable hn
  -- The general theorem about agendas, at the items and their deadlines.
  obtain ⟨hperm, hsorted, hafter⟩ :=
    hrun.spec (TodoItem.id_settle now) h.ids (hremindable.settles hmax)
  have hids : (remindAll now n list).1.Nodup := by
    rw [htaken, (hperm.map _).nodup_iff]
    exact (List.filter_sublist.map _).nodup h.ids
  refine ⟨hvalid', hzero, ?_, ⟨taken, htaken, hperm, hsorted⟩, hids, hafter, ?_⟩
  · rw [htaken, List.length_map, hperm.length_eq]
  · intro item hitem hdue
    refine ⟨fun hrepeat ↦ if_pos hrepeat, fun hrepeat ↦ ?_⟩
    exact deadline_settle (h.items item hitem) hmax hdue hrepeat

/-- Two of the three items are due at the moment, the later one first in the list. -/
def threeTodos : TodoList where
  revision := 3
  nextId := 9
  count := 3
  items := (Vector.replicate todoCapacity .zero).setIfInBounds 0
    ⟨2, false, .ofBytes (ascii ['m', 'i', 'l', 'k']), 1800000000, 86400⟩ |>.setIfInBounds 1
    ⟨7, false, .ofBytes (ascii ['t', 'e', 'a']), 1799990000, 0⟩ |>.setIfInBounds 2
    ⟨8, false, .ofBytes (ascii ['c', 'a', 'l', 'l']), 1900000000, 0⟩

/-- Two of three items are due. -/
theorem reminders_drain_three :
    smartTodoDue (remindAll 1800086400 12 threeTodos).2 1800086400 = 0 ∧
      (remindAll 1800086400 12 threeTodos).1 = [7, 2] ∧
      ((remindAll 1800086400 12 threeTodos).2.live.map TodoItem.deadline) =
        [1800172800, 0, 1900000000] := by
  refine ⟨(reminders_drain threeTodos 1800086400 ?_ ?_ ?_ ?_ ?_ 12 ?_).2.1, ?_, ?_⟩
  all_goals decide +kernel

end VibeUsage
