import VibeUsage.Todo.Valid

/-!
# What the operations do to the list

Over the items in use an operation is one line: `appendItem` appends, `completeItems` maps, the
compaction filters and numbers what is left. Each keeps the list valid, and a failure leaves it as
it was although two of the loops have run by then.

Only the set of requested ids that occur in the list matters (`smartTodoApply_congr`).

* `steps_smartTodoApply` and `steps_smartTodoReminded` are the operations, one lemma for each kind
  of action before them.
* `nextDeadline_nextDue` says of a repeated reminder that no time in its rhythm is left out.
* `todo_operations` is the result.
-/

namespace VibeUsage

open Compaction

variable {list : TodoList} {action : TodoAction} {now : Int64}

/-- The ids an action asks for. -/
def TodoAction.requested (action : TodoAction) : Finset UInt32 :=
  if action.idCount = 0 then {action.id}
  else (action.ids.toList.take action.idCount.toNat).toFinset

/-- The ids that an action asks for. -/
theorem actionRequestsId_iff {id : UInt32} :
    actionRequestsId action id = true ↔ id ∈ action.requested := by
  unfold actionRequestsId TodoAction.requested
  split
  · rw [decide_eq_true_eq, Finset.mem_singleton, eq_comm]
  · rw [decide_eq_true_eq, List.mem_toFinset, List.mem_take_iff_getElem]
    constructor
    · rintro ⟨i, hi, rfl⟩
      exact ⟨i, by simpa using hi, by simp⟩
    · rintro ⟨i, hi, rfl⟩
      rw [Vector.length_toList, lt_min_iff] at hi
      exact ⟨⟨i, hi.2⟩, hi.1, by simp⟩

/-! ### Machine words -/

/-- A number of seconds as an `int64_t`. -/
theorem toInt_seconds (seconds : UInt32) : (Int64.ofNat seconds.toNat).toInt = seconds.toNat := by
  have hlt := seconds.toNat_lt
  exact Int64.toInt_ofNat_of_lt (by omega)

/-- A sum that does not leave 64 bits. -/
theorem toInt_add_of_bounds {a b : Int64} (h : -2 ^ 63 ≤ a.toInt + b.toInt)
    (h' : a.toInt + b.toInt < 2 ^ 63) : (a + b).toInt = a.toInt + b.toInt := by
  rw [Int64.toInt_add]
  exact Int.bmod_eq_of_le (by omega) (by omega)

/-- Counting up does not wrap below the largest. -/
theorem toNat_add_one {a : UInt32} (h : a ≠ uint32Max) : (a + 1).toNat = a.toNat + 1 := by
  have hne : a.toNat ≠ 4294967295 := fun hmax ↦ h (UInt32.toNat_inj.1 hmax)
  have hlt := a.toNat_lt
  rw [UInt32.toNat_add, UInt32.toNat_one]
  exact Nat.mod_eq_of_lt (by omega)

/-! ### Validity is kept -/

/-- An item stays valid when the next id grows. -/
theorem TodoItem.Valid.mono {item : TodoItem} {next next' : UInt32} (h : item.Valid next)
    (hle : next.toNat ≤ next'.toNat) : item.Valid next' :=
  { h with id_lt := UInt32.lt_iff_toNat_lt.2 (Nat.lt_of_lt_of_le
    (UInt32.lt_iff_toNat_lt.1 h.id_lt) hle) }

/-- A list whose items are changed in place, ids excepted. -/
theorem TodoList.Valid.of_map {after : TodoList} {f : TodoItem → TodoItem} (h : list.Valid)
    (hlive : after.live = list.live.map f) (hcount : after.count = list.count)
    (hnext : after.nextId = list.nextId) (hid : ∀ item, (f item).id = item.id)
    (hitem : ∀ item ∈ list.live, (f item).Valid list.nextId) : after.Valid where
  count_le := by
    rw [hcount]
    exact h.count_le
  nextId_ne := by
    rw [hnext]
    exact h.nextId_ne
  items := by
    intro item hmem
    rw [hlive, List.mem_map] at hmem
    obtain ⟨old, hold, rfl⟩ := hmem
    rw [hnext]
    exact hitem old hold
  ids := by
    have hids : (fun item ↦ (f item).id) = fun item : TodoItem ↦ item.id := funext hid
    rw [hlive, List.map_map]
    show (list.live.map fun item ↦ (f item).id).Nodup
    rw [hids]
    exact h.ids

/-! ### Add -/

/-- What a new item must be. -/
theorem addValid_iff : addValid action = true ↔ action.id = 0 ∧ action.idCount = 0 ∧
    textValid action.title todoTitleBytes = true ∧ action.delaySeconds ≤ todoMaxInterval ∧
    action.repeatSeconds ≤ todoMaxInterval ∧
    (action.repeatSeconds ≠ 0 → 60 ≤ action.repeatSeconds) := by
  unfold addValid
  rw [decide_eq_true_eq]
  simp only [not_or, not_and, not_not, gt_iff_lt, UInt32.not_lt]

/-- The deadline of an added item, when the check of the time has passed. -/
theorem addedItem_due (hdelay : addDelay action ≠ 0) (h : todoTimeMin ≤ now)
    (h' : now ≤ todoTimeMax - Int64.ofNat (addDelay action).toNat) :
    (addedItem list action now).dueUtc.toInt = now.toInt + (addDelay action).toNat ∧
      now.toInt + (addDelay action).toNat ≤ 4102444800 := by
  have hlt := (addDelay action).toNat_lt
  have hseconds := toInt_seconds (addDelay action)
  have hmax : todoTimeMax.toInt = 4102444800 := rfl
  have hmin : todoTimeMin.toInt = 1704067200 := rfl
  have hsub : (todoTimeMax - Int64.ofNat (addDelay action).toNat).toInt =
      4102444800 - (addDelay action).toNat := by
    rw [Int64.toInt_sub, hseconds, hmax]
    exact Int.bmod_eq_of_le (by omega) (by omega)
  rw [Int64.le_iff_toInt_le] at h h'
  have hadd : (now + Int64.ofNat (addDelay action).toNat).toInt =
      now.toInt + (addDelay action).toNat := by
    rw [toInt_add_of_bounds (by omega) (by omega), hseconds]
  unfold addedItem
  dsimp only
  rw [if_pos hdelay, hadd]
  exact ⟨rfl, by omega⟩

/-- **A new item** is valid, with the next id still ahead. -/
theorem valid_addedItem (hadd : addValid action = true) (hvalid : list.Valid)
    (hnext : list.nextId ≠ uint32Max)
    (htime : addDelay action ≠ 0 →
      todoTimeMin ≤ now ∧ now ≤ todoTimeMax - Int64.ofNat (addDelay action).toNat) :
    (addedItem list action now).Valid (list.nextId + 1) := by
  obtain ⟨-, -, htitle, -, hrepeat, hrepeat'⟩ := addValid_iff.1 hadd
  have hdue : addDelay action ≠ 0 → todoTimeMin ≤ (addedItem list action now).dueUtc ∧
      (addedItem list action now).dueUtc ≤ todoTimeMax := by
    intro hdelay
    obtain ⟨hmin, hmax⟩ := htime hdelay
    have hint : (addedItem list action now).dueUtc.toInt = now.toInt + (addDelay action).toNat ∧
        now.toInt + (addDelay action).toNat ≤ 4102444800 := addedItem_due hdelay hmin hmax
    have hmin' : todoTimeMin.toInt = 1704067200 := rfl
    have hmax' : todoTimeMax.toInt = 4102444800 := rfl
    rw [Int64.le_iff_toInt_le] at hmin ⊢
    rw [Int64.le_iff_toInt_le]
    omega
  have hnone : addDelay action = 0 → (addedItem list action now).dueUtc = 0 := by
    intro hdelay
    unfold addedItem
    dsimp only
    rw [if_neg (not_not.2 hdelay)]
  refine ⟨hvalid.nextId_ne, ?_, htitle, hrepeat, hrepeat', fun hne ↦ ?_, ?_, fun hperiod ↦ ?_⟩
  · rw [UInt32.lt_iff_toNat_lt, toNat_add_one hnext]
    exact Nat.lt_succ_self _
  · exact hdue fun hdelay ↦ hne (hnone hdelay)
  · intro hdone
    exact absurd hdone Bool.false_ne_true
  · -- a period is a delay when no other is given
    have hdelay : addDelay action ≠ 0 := by
      unfold addDelay
      split
      · assumption
      · exact hperiod
    intro hzero
    have hmin := (hdue hdelay).1
    rw [hzero] at hmin
    exact absurd hmin (by decide)

/-- It comes behind the others. -/
theorem live_appendItem (h : list.count.toNat < todoCapacity) :
    (appendItem list action now).live = list.live ++ [addedItem list action now] := by
  have hcount : (list.count + 1).toNat = list.count.toNat + 1 := by
    have hcap : todoCapacity = 12 := rfl
    rw [UInt8.toNat_add]
    exact Nat.mod_eq_of_lt (by show list.count.toNat + 1 < 256; omega)
  show ((list.items.setIfInBounds _ _).toList.take (list.count + 1).toNat) = _
  rw [hcount, Vector.toList_setIfInBounds, List.take_add_one, List.take_set_of_le le_rfl,
    List.getElem?_set_self (by rwa [Vector.length_toList])]
  rfl

/-- The list stays valid. -/
theorem valid_appendItem (hcount : list.count.toNat < todoCapacity)
    (hnext : list.nextId ≠ uint32Max) (hvalid : list.Valid)
    (hitem : (addedItem list action now).Valid (list.nextId + 1)) :
    (appendItem list action now).Valid where
  count_le := by
    have hcap : todoCapacity = 12 := rfl
    have hadd : (list.count + 1).toNat = list.count.toNat + 1 := by
      rw [UInt8.toNat_add]
      exact Nat.mod_eq_of_lt (by show list.count.toNat + 1 < 256; omega)
    show (list.count + 1).toNat ≤ _
    rw [hadd]
    exact hcount
  nextId_ne := by
    intro h
    have hzero := toNat_add_one hnext
    rw [show list.nextId + 1 = 0 from h] at hzero
    cases hzero
  items := by
    intro item hmem
    rw [live_appendItem hcount, List.mem_append, List.mem_singleton] at hmem
    rcases hmem with hmem | rfl
    · refine (hvalid.items item hmem).mono ?_
      show list.nextId.toNat ≤ (list.nextId + 1).toNat
      rw [toNat_add_one hnext]
      exact Nat.le_succ _
    · exact hitem
  ids := by
    rw [live_appendItem hcount, List.map_append, List.nodup_append]
    refine ⟨hvalid.ids, List.nodup_singleton _, fun id hid id' hid' ↦ ?_⟩
    -- the new id is above all others
    obtain ⟨item, hmem, rfl⟩ := List.mem_map.1 hid
    obtain rfl : id' = list.nextId := List.mem_singleton.1 hid'
    exact UInt32.ne_of_lt (hvalid.items item hmem).id_lt

/-! ### Complete -/

/-- An item that is done is valid. -/
theorem TodoItem.Valid.done_item {item : TodoItem} {nextId : UInt32} (h : item.Valid nextId) :
    item.done.Valid nextId where
  id_ne := h.id_ne
  id_lt := h.id_lt
  title := h.title
  repeat_le := by
    show (0 : UInt32) ≤ todoMaxInterval
    decide
  repeat_ge := fun hne ↦ absurd rfl hne
  due := fun hne ↦ absurd rfl hne
  done := fun _ ↦ ⟨rfl, rfl⟩
  due_of_repeat := fun hne ↦ absurd rfl hne

/-- **The items that are asked for** are done, and the others stay. -/
theorem live_completeItems (h : list.Valid) : (completeItems list action).live =
    list.live.map fun item ↦ if item.id ∈ action.requested then item.done else item := by
  have hcount : (completeItems list action).count.toNat ≤ todoCapacity := h.count_le
  refine List.ext_getElem ?_ fun i hi hi' ↦ ?_
  · rw [List.length_map, length_live hcount, length_live h.count_le]
    rfl
  · rw [length_live hcount] at hi
    have hi'' : i < list.live.length := by rwa [List.length_map] at hi'
    have hlt : i < list.count.toNat := hi
    have hcap : i < todoCapacity := Nat.lt_of_lt_of_le hlt h.count_le
    rw [List.getElem_map, getElem_live _ hcap, getElem_live _ hcap]
    show (Vector.ofFn _)[i] = _
    rw [Vector.getElem_ofFn]
    have hitem := h.items _ ((mem_live_iff h.count_le).2 ⟨⟨i, hcap⟩, hlt, rfl⟩)
    unfold completes
    simp only [decide_eq_true_eq, actionRequestsId_iff, Bool.not_eq_true]
    by_cases hid : list.items[i].id ∈ action.requested
    · rw [if_pos hid]
      cases hdone : list.items[i].completed with
      | true =>
        -- a completed item of a valid list has no deadline and no period to clear
        obtain ⟨hdue, hrepeat⟩ := hitem.done hdone
        rw [if_neg (by simp)]
        show list.items[i] =
          { list.items[i] with completed := true, dueUtc := 0, repeatSeconds := 0 }
        rw [← hdone, ← hdue, ← hrepeat]
        rfl
      | false =>
        rw [if_pos ⟨hlt, hid, rfl⟩]
        rfl
    · rw [if_neg hid, if_neg fun h ↦ hid h.2.1]
      rfl

/-- The list stays valid. -/
theorem valid_completeItems (h : list.Valid) : (completeItems list action).Valid := by
  refine h.of_map (live_completeItems h) rfl rfl (fun item ↦ ?_) fun item hmem ↦ ?_
  · split <;> rfl
  · split
    · exact (h.items item hmem).done_item
    · exact h.items item hmem

/-- When no item is completed, the loop has changed nothing. -/
theorem completeItems_of_not (h : ¬ ∃ i, completes list action i = true) :
    completeItems list action = list := by
  have hitems : (Vector.ofFn fun i ↦
      if completes list action i then list.items[i].done else list.items[i]) = list.items := by
    refine Vector.ext fun i hi ↦ ?_
    rw [Vector.getElem_ofFn, if_neg fun hc ↦ h ⟨⟨i, hi⟩, hc⟩]
    rfl
  unfold completeItems
  rw [hitems]

/-! ### Delete -/

/-- Numbered anew from one. -/
def renumbered (items : List TodoItem) : List TodoItem :=
  items.mapIdx fun i item ↦ { item with id := UInt32.ofNat (i + 1) }

@[simp] theorem length_renumbered (items : List TodoItem) :
    (renumbered items).length = items.length := List.length_mapIdx

/-- The items are numbered from one. -/
theorem getElem_renumbered {items : List TodoItem} {i : ℕ} (h : i < (renumbered items).length)
    (h' : i < items.length) :
    (renumbered items)[i] = { items[i] with id := UInt32.ofNat (i + 1) } := List.getElem_mapIdx

/-- The items that stay, in their order. -/
theorem take_keptItems : (keptItems list action).1.toList.take (keptItems list action).2 =
    list.live.filter fun item ↦ item.id ∉ action.requested := by
  unfold keptItems TodoList.live
  rw [take_compact]
  refine List.filter_congr fun item _ ↦ ?_
  rw [decide_eq_decide, actionRequestsId_iff]

/-- No more items are kept than there are. -/
theorem keptItems_le : (keptItems list action).2 ≤ list.count.toNat := compact_write_le _

/-- **What is kept** is numbered anew. -/
theorem live_renumber {items : Vector TodoItem todoCapacity} {write : ℕ}
    (h : write ≤ todoCapacity) :
    (renumber list items write).live = renumbered (items.toList.take write) := by
  have hcap : todoCapacity = 12 := rfl
  have hcount : (renumber list items write).count.toNat = write := by
    show (UInt8.ofNat write).toNat = write
    rw [UInt8.toNat_ofNat', Nat.mod_eq_of_lt (by omega)]
  have hlen : (renumber list items write).live.length = write := by
    rw [length_live (by rwa [hcount]), hcount]
  refine List.ext_getElem ?_ fun i hi hi' ↦ ?_
  · rw [hlen, length_renumbered, List.length_take, Vector.length_toList, Nat.min_eq_left h]
  · rw [hlen] at hi
    have htake : i < (items.toList.take write).length := by rwa [← length_renumbered]
    rw [getElem_live _ (by omega), getElem_renumbered hi' htake, List.getElem_take,
      Vector.getElem_toList]
    show (Vector.ofFn _)[i] = _
    rw [Vector.getElem_ofFn]
    exact if_pos hi

/-- Numbered so, the list is valid. -/
theorem valid_renumber {items : Vector TodoItem todoCapacity} {write : ℕ} {nextId : UInt32}
    (hwrite : write ≤ todoCapacity)
    (hitems : ∀ item ∈ items.toList.take write, item.Valid nextId) :
    (renumber list items write).Valid := by
  have hcap : todoCapacity = 12 := rfl
  have hlive : (renumber list items write).live = renumbered (items.toList.take write) :=
    live_renumber hwrite
  have hlen : (items.toList.take write).length = write := by
    rw [List.length_take, Vector.length_toList, Nat.min_eq_left hwrite]
  -- Positions are counted from 1 and are few, so an id is never 0.
  have hid : ∀ i < 12, (UInt32.ofNat (i + 1)).toNat = i + 1 := by
    intro i hi
    rw [UInt32.toNat_ofNat']
    exact Nat.mod_eq_of_lt (by omega)
  have hnext : (renumber list items write).nextId.toNat = write + 1 := by
    show (UInt32.ofNat (write + 1)).toNat = _
    rw [UInt32.toNat_ofNat']
    exact Nat.mod_eq_of_lt (by omega)
  refine ⟨?_, ?_, fun item hmem ↦ ?_, ?_⟩
  · show (UInt8.ofNat write).toNat ≤ _
    rw [UInt8.toNat_ofNat', Nat.mod_eq_of_lt (by omega)]
    exact hwrite
  · intro hzero
    rw [hzero] at hnext
    cases hnext
  · rw [hlive] at hmem
    obtain ⟨i, hi, rfl⟩ := List.mem_iff_getElem.1 hmem
    have hi' : i < (items.toList.take write).length := by rwa [← length_renumbered]
    have hlt : i < 12 := by omega
    have hold := hitems _ (List.getElem_mem hi')
    rw [getElem_renumbered hi hi']
    refine { hold with id_ne := fun hzero ↦ ?_, id_lt := ?_ }
    · have hone := hid i hlt
      rw [show UInt32.ofNat (i + 1) = 0 from hzero] at hone
      cases hone
    · rw [UInt32.lt_iff_toNat_lt, hnext]
      show (UInt32.ofNat (i + 1)).toNat < _
      rw [hid i hlt]
      omega
  · rw [hlive, List.nodup_iff_pairwise_ne, List.pairwise_map, List.pairwise_iff_getElem]
    intro i j hi hj hij
    rw [length_renumbered, hlen] at hi hj
    rw [getElem_renumbered _ (by omega), getElem_renumbered _ (by omega)]
    intro heq
    have hnat := congrArg UInt32.toNat heq
    rw [hid i (by omega), hid j (by omega)] at hnat
    omega

/-! ### Reminders -/

/-- An item that is found has the id. -/
theorem itemWithId_eq_some {id : UInt32} {i : Fin todoCapacity} (h : itemWithId list id = some i) :
    i < list.count.toNat ∧ list.items[i].id = id := by
  have hi := List.find?_some h
  exact of_decide_eq_true hi

/-- One item gets another deadline. -/
theorem live_setDue (h : list.Valid) {i : Fin todoCapacity} (hi : i < list.count.toNat)
    (due : Int64) : (list.setDue i due).live =
      list.live.map fun item ↦ if item.id = list.items[i].id then { item with dueUtc := due }
        else item := by
  have hcount : (list.setDue i due).count.toNat ≤ todoCapacity := h.count_le
  refine List.ext_getElem ?_ fun j hj hj' ↦ ?_
  · rw [List.length_map, length_live hcount, length_live h.count_le]
    rfl
  · rw [length_live hcount] at hj
    have hlt : j < list.count.toNat := hj
    have hcap : j < todoCapacity := Nat.lt_of_lt_of_le hlt h.count_le
    rw [List.getElem_map, getElem_live _ hcap, getElem_live _ hcap]
    show (list.items.set i.val { list.items[i] with dueUtc := due } i.isLt)[j] = _
    rw [Vector.getElem_set]
    by_cases hij : i.val = j
    · subst hij
      rw [if_pos rfl]
      exact (if_pos rfl).symm
    · -- another index in use has another id
      have hids := h.ids
      have hne : list.items[j].id ≠ list.items[i].id := by
        intro heq
        have hi' : i.val < list.live.length := by rwa [length_live h.count_le]
        have hj'' : j < list.live.length := by rwa [length_live h.count_le]
        have hids' : (list.live.map (·.id))[i.val]? = (list.live.map (·.id))[j]? := by
          rw [List.getElem?_map, List.getElem?_map, List.getElem?_eq_getElem hi',
            List.getElem?_eq_getElem hj'', getElem_live hi' i.isLt, getElem_live hj'' hcap]
          exact congrArg some heq.symm
        exact hij ((List.getElem?_inj (by rwa [List.length_map]) hids).1 hids')
      rw [if_neg hij, if_neg hne]

/-- The deadline of a repeated item, without machine words: the first in its rhythm after now. -/
theorem toInt_nextDue {item : TodoItem} (hdue : 0 ≤ item.dueUtc.toInt)
    (hnow : item.dueUtc ≤ now) (hmax : now ≤ todoTimeMax) (hrepeat : item.repeatSeconds ≠ 0) :
    (nextDue item now).toInt = item.dueUtc.toInt +
      ((now.toInt - item.dueUtc.toInt) / item.repeatSeconds.toNat + 1) *
        item.repeatSeconds.toNat := by
  have hperiod := toInt_seconds item.repeatSeconds
  have hlt := item.repeatSeconds.toNat_lt
  have hpos : 0 < item.repeatSeconds.toNat :=
    Nat.pos_of_ne_zero fun hzero ↦ hrepeat (UInt32.toNat_inj.1 hzero)
  have hmax' : todoTimeMax.toInt = 4102444800 := rfl
  rw [Int64.le_iff_toInt_le] at hnow hmax
  have hsub : (now - item.dueUtc).toInt = now.toInt - item.dueUtc.toInt := by
    rw [Int64.toInt_sub]
    exact Int.bmod_eq_of_le (by omega) (by omega)
  generalize hspan : now.toInt - item.dueUtc.toInt = span at hsub ⊢
  generalize hp : item.repeatSeconds.toNat = period at *
  have hspan' : 0 ≤ span ∧ span ≤ 4102444800 := by omega
  have hquot : 0 ≤ span / period ∧ span / period ≤ span :=
    ⟨Int.ediv_nonneg hspan'.1 (by omega), Int.ediv_le_self _ hspan'.1⟩
  have hround : span / period * period ≤ span := Int.ediv_mul_le span (by omega)
  have hround' : 0 ≤ span / period * period := Int.mul_nonneg hquot.1 (by omega)
  have hdiv : ((now - item.dueUtc) / Int64.ofNat period).toInt = span / period := by
    rw [Int64.toInt_div, hsub, hperiod, Int.tdiv_eq_ediv_of_nonneg hspan'.1]
    exact Int.bmod_eq_of_le (by omega) (by omega)
  have hone : (1 : Int64).toInt = 1 := rfl
  have hsteps : ((now - item.dueUtc) / Int64.ofNat period + 1).toInt = span / period + 1 := by
    rw [toInt_add_of_bounds (by omega) (by omega), hdiv, hone]
  have hmul : (((now - item.dueUtc) / Int64.ofNat period + 1) * Int64.ofNat period).toInt =
      (span / period + 1) * period := by
    rw [Int64.toInt_mul, hsteps, hperiod]
    have hexpand : (span / period + 1) * (period : ℤ) = span / period * period + period := by ring
    exact Int.bmod_eq_of_le (by omega) (by omega)
  have hexpand : (span / period + 1) * (period : ℤ) = span / period * period + period := by ring
  unfold nextDue
  dsimp only
  rw [hp, toInt_add_of_bounds (by omega) (by omega), hmul]

/-- What a reminder at `now` makes of a deadline: none without a repetition, else the first one in
its rhythm that lies ahead. -/
def NextDeadline (item : TodoItem) (now due : Int64) : Prop :=
  if item.repeatSeconds = 0 then due = 0
  else ∃ steps : ℕ, 1 ≤ steps ∧
    due.toInt = item.dueUtc.toInt + steps * item.repeatSeconds.toNat ∧
    now.toInt < due.toInt ∧ due.toInt ≤ now.toInt + item.repeatSeconds.toNat

/-- **The next deadline** is the least that is still to come. -/
theorem nextDeadline_nextDue {item : TodoItem} (hdue : 0 ≤ item.dueUtc.toInt)
    (hnow : item.dueUtc ≤ now) (hmax : now ≤ todoTimeMax) (hrepeat : item.repeatSeconds ≠ 0) :
    NextDeadline item now (nextDue item now) := by
  have hpos : 0 < item.repeatSeconds.toNat :=
    Nat.pos_of_ne_zero fun hzero ↦ hrepeat (UInt32.toNat_inj.1 hzero)
  unfold NextDeadline
  rw [if_neg hrepeat, toInt_nextDue hdue hnow hmax hrepeat]
  rw [Int64.le_iff_toInt_le] at hnow
  generalize item.repeatSeconds.toNat = period at hpos
  have hspan : 0 ≤ now.toInt - item.dueUtc.toInt := by omega
  have hquot : 0 ≤ (now.toInt - item.dueUtc.toInt) / period := Int.ediv_nonneg hspan (by omega)
  have hround := Int.ediv_mul_add_emod (now.toInt - item.dueUtc.toInt) period
  have hmod := Int.emod_lt_of_pos (now.toInt - item.dueUtc.toInt) (b := period) (by omega)
  have hmod' := Int.emod_nonneg (now.toInt - item.dueUtc.toInt) (b := period) (by omega)
  generalize (now.toInt - item.dueUtc.toInt) / period = steps at *
  have hexpand : (steps + 1) * (period : ℤ) = steps * period + period := by ring
  refine ⟨(steps + 1).toNat, by omega, ?_, by omega, by omega⟩
  rw [Int.toNat_of_nonneg (by omega)]

/-- The list stays valid. -/
theorem valid_setDue (h : list.Valid) {i : Fin todoCapacity} (hi : i < list.count.toNat)
    {due : Int64} (hdone : list.items[i].completed = false)
    (hdue : due ≠ 0 → todoTimeMin ≤ due ∧ due ≤ todoTimeMax)
    (hrepeat : list.items[i].repeatSeconds ≠ 0 → due ≠ 0) : (list.setDue i due).Valid := by
  refine h.of_map (live_setDue h hi due) rfl rfl (fun item ↦ ?_) fun item hmem ↦ ?_
  · split <;> rfl
  · have hitem := h.items item hmem
    split
    · rename_i hid
      -- the item with that id is the one at the index
      have heq : item = list.items[i] := by
        have hi' : list.items[i] ∈ list.live := (mem_live_iff h.count_le).2 ⟨i, hi, rfl⟩
        exact List.inj_on_of_nodup_map h.ids hmem hi' hid
      subst heq
      refine { hitem with due := hdue, done := fun hc ↦ ?_, due_of_repeat := hrepeat }
      rw [show list.items[i].completed = true from hc] at hdone
      cases hdone
    · exact hitem

/-! ### Every operation -/

/-- What a successful action does to the items in use. -/
def Applied (list : TodoList) (action : TodoAction) (now : Int64) (after : TodoList) : Prop :=
  match action.kind with
  | .add => ∃ item, after.live = list.live ++ [item] ∧
      after.nextId.toNat = list.nextId.toNat + 1 ∧
      item.id = list.nextId ∧ item.completed = false ∧ item.title = action.title ∧
      item.repeatSeconds = action.repeatSeconds ∧
      item.dueUtc.toInt =
        if action.delaySeconds ≠ 0 then now.toInt + action.delaySeconds.toNat
        else if action.repeatSeconds ≠ 0 then now.toInt + action.repeatSeconds.toNat
        else 0
  | .delete =>
      after.live = renumbered (list.live.filter fun item ↦ item.id ∉ action.requested) ∧
      after.nextId.toNat = after.live.length + 1
  | .complete =>
      (after.live = list.live.map fun item ↦ if item.id ∈ action.requested then
        { item with completed := true, dueUtc := 0, repeatSeconds := 0 } else item) ∧
      after.nextId = list.nextId
  | .noop => False

/-- What a successful reminder does to the items in use. -/
def Reminded (list : TodoList) (id : UInt32) (now : Int64) (after : TodoList) : Prop :=
  ∃ item ∈ list.live, item.id = id ∧ item.completed = false ∧ item.dueUtc ≠ 0 ∧
    item.dueUtc ≤ now ∧ after.nextId = list.nextId ∧ ∃ due, NextDeadline item now due ∧
      after.live = list.live.map fun item ↦
        if item.id = id then { item with dueUtc := due } else item

/-- An error with the list as it was, or a valid list of the next revision. -/
def Steps (list : TodoList) (result : Option EspErr × TodoList) (effect : TodoList → Prop) : Prop :=
  (∃ error, result = (some error, list)) ∨
    ∃ after, result = (none, after) ∧ smartTodoValid after = true ∧
      after.revision.toNat = list.revision.toNat + 1 ∧ effect after

/-- A valid list becomes the next revision. -/
theorem steps_revised {after : TodoList} {effect : TodoList → Prop} (hvalid : after.Valid)
    (hrevision : after.revision = list.revision) (hmax : list.revision ≠ uint32Max)
    (heffect : effect after.revised) : Steps list (none, after.revised) effect := by
  refine Or.inr ⟨_, rfl, ?_, ?_, heffect⟩
  · rw [smartTodoValid_iff]
    exact ⟨hvalid.count_le, hvalid.nextId_ne, hvalid.items, hvalid.ids⟩
  · show (after.revision + 1).toNat = _
    rw [hrevision, toNat_add_one hmax]

/-- What an addition does. -/
theorem steps_add (hkind : action.kind = .add) (hvalid : list.Valid)
    (hmax : list.revision ≠ uint32Max) (hcount : list.count.toNat ≠ todoCapacity)
    (hnext : list.nextId ≠ uint32Max) (hadd : addValid action = true)
    (htime : addDelay action ≠ 0 →
      todoTimeMin ≤ now ∧ now ≤ todoTimeMax - Int64.ofNat (addDelay action).toNat) :
    Steps list (none, (appendItem list action now).revised) (Applied list action now) := by
  have hlt : list.count.toNat < todoCapacity := Nat.lt_of_le_of_ne hvalid.count_le hcount
  refine steps_revised (valid_appendItem hlt hnext hvalid (valid_addedItem hadd hvalid hnext htime))
    rfl hmax ?_
  unfold Applied
  rw [hkind]
  refine ⟨addedItem list action now, live_appendItem hlt, toNat_add_one hnext, rfl, rfl, rfl, rfl,
    ?_⟩
  by_cases hdelay : addDelay action = 0
  · unfold addDelay at hdelay
    split at hdelay
    · rename_i hne
      exact absurd hdelay hne
    · rename_i hzero
      rw [if_neg hzero, if_neg (not_not.2 hdelay)]
      unfold addedItem addDelay
      rw [if_neg hzero, hdelay]
      rfl
  · obtain ⟨hmin, hmax'⟩ := htime hdelay
    have hdue : (addedItem list action now).dueUtc.toInt = now.toInt + (addDelay action).toNat ∧
        now.toInt + (addDelay action).toNat ≤ 4102444800 := addedItem_due hdelay hmin hmax'
    rw [hdue.1]
    unfold addDelay at hdelay ⊢
    split
    · rfl
    · rename_i hzero
      rw [if_neg hzero] at hdelay
      rw [if_pos hdelay]

@[simp] theorem live_revised (list : TodoList) : list.revised.live = list.live := rfl

@[simp] theorem nextId_revised (list : TodoList) : list.revised.nextId = list.nextId := rfl

/-- What a completion does. -/
theorem steps_complete (hkind : action.kind = .complete) (hvalid : list.Valid)
    (hmax : list.revision ≠ uint32Max) :
    Steps list (none, (completeItems list action).revised) (Applied list action now) := by
  refine steps_revised (valid_completeItems hvalid) rfl hmax ?_
  unfold Applied
  rw [hkind]
  dsimp only
  rw [live_revised, nextId_revised, live_completeItems hvalid]
  exact ⟨rfl, rfl⟩

/-- The compaction, and what follows it when an item has been dropped. -/
theorem steps_delete (hkind : action.kind = .delete) (hvalid : list.Valid)
    (hmax : list.revision ≠ uint32Max) :
    Steps list (if (keptItems list action).2 = list.count.toNat then
        (some .notFound, { list with items := (keptItems list action).1 })
      else (none, (renumber list (keptItems list action).1 (keptItems list action).2).revised))
      (Applied list action now) := by
  split
  · rename_i hsame
    have hitems : (keptItems list action).1 = list.items := compact_of_write_eq hsame
    rw [hitems]
    exact Or.inl ⟨_, rfl⟩
  · have hle : (keptItems list action).2 ≤ todoCapacity := keptItems_le.trans hvalid.count_le
    have hkept : ∀ item ∈ (keptItems list action).1.toList.take (keptItems list action).2,
        item.Valid list.nextId := by
      rw [take_keptItems]
      exact fun item hmem ↦ hvalid.items item (List.mem_of_mem_filter hmem)
    have hlive : (renumber list (keptItems list action).1 (keptItems list action).2).live =
        renumbered (list.live.filter fun item ↦ item.id ∉ action.requested) := by
      rw [live_renumber hle, take_keptItems]
    refine steps_revised (valid_renumber hle hkept) rfl hmax ?_
    unfold Applied
    rw [hkind]
    dsimp only
    rw [live_revised, nextId_revised, ← hlive]
    refine ⟨rfl, ?_⟩
    rw [live_renumber hle, length_renumbered, List.length_take, Vector.length_toList,
      Nat.min_eq_left hle]
    show (UInt32.ofNat _).toNat = _
    have hcap : todoCapacity = 12 := rfl
    rw [UInt32.toNat_ofNat', Nat.mod_eq_of_lt (by omega)]

/-- **Every action** fails without a change or does exactly what it says. -/
theorem steps_smartTodoApply (hvalid : list.Valid) (action : TodoAction) (now : Int64) :
    Steps list (smartTodoApply list action now) (Applied list action now) := by
  -- Every refusal returns the list as it was.
  have herror : ∀ error, Steps list (some error, list) (Applied list action now) :=
    fun error ↦ Or.inl ⟨error, rfl⟩
  unfold smartTodoApply
  rw [if_neg (not_not.2 (smartTodoValid_iff.2 hvalid))]
  split
  · exact herror _
  rename_i hnoop
  split
  · exact herror _
  rename_i hmax
  split
  · rename_i hkind
    split
    · exact herror _
    rename_i hroom
    split
    · exact herror _
    rename_i hadd
    split
    · exact herror _
    rename_i htime
    refine steps_add hkind hvalid hmax (fun h ↦ hroom (Or.inl h)) (fun h ↦ hroom (Or.inr h))
      (not_not.1 hadd) fun hdelay ↦ ?_
    simp only [not_and, not_or, gt_iff_lt, Int64.not_lt] at htime
    exact htime hdelay
  rename_i hadd
  split
  · exact herror _
  split
  · rename_i hkind
    split
    · exact steps_complete hkind hvalid hmax
    · rename_i hnone
      rw [completeItems_of_not hnone]
      exact herror _
  · rename_i hcomplete
    -- Only one kind is left.
    have hkind : action.kind = .delete := by
      cases hk : action.kind with
      | add => exact absurd hk hadd
      | complete => exact absurd hk hcomplete
      | delete => rfl
      | noop => exact absurd hk hnoop
    exact steps_delete hkind hvalid hmax

/-- **Every reminder** fails without a change or moves exactly one deadline. -/
theorem steps_smartTodoReminded (hvalid : list.Valid) (id : UInt32) (now : Int64) :
    Steps list (smartTodoReminded list id now) (Reminded list id now) := by
  have herror : ∀ error, Steps list (some error, list) (Reminded list id now) :=
    fun error ↦ Or.inl ⟨error, rfl⟩
  unfold smartTodoReminded
  split
  · exact herror _
  rename_i hguard
  obtain ⟨-, hguard⟩ := not_or.1 hguard
  obtain ⟨hmin, hguard⟩ := not_or.1 hguard
  obtain ⟨hmax, hrevision⟩ := not_or.1 hguard
  rw [gt_iff_lt, Int64.not_lt] at hmax
  split
  · exact herror _
  rename_i i hi
  obtain ⟨hcount, rfl⟩ := itemWithId_eq_some hi
  dsimp only
  split
  · exact herror _
  rename_i hitem
  obtain ⟨hdone, hitem⟩ := not_or.1 hitem
  obtain ⟨hdue, hpast⟩ := not_or.1 hitem
  rw [gt_iff_lt, Int64.not_lt] at hpast
  rw [Bool.not_eq_true] at hdone
  have hmem : list.items[i] ∈ list.live := (mem_live_iff hvalid.count_le).2 ⟨i, hcount, rfl⟩
  obtain ⟨hdueMin, -⟩ := (hvalid.items _ hmem).due hdue
  have hmin' : todoTimeMin.toInt = 1704067200 := rfl
  have hmax' : todoTimeMax.toInt = 4102444800 := rfl
  -- what both kinds of reminder have in common
  have hstep : ∀ due, NextDeadline list.items[i] now due →
      (due ≠ 0 → todoTimeMin ≤ due ∧ due ≤ todoTimeMax) →
      (list.items[i].repeatSeconds ≠ 0 → due ≠ 0) →
      Steps list (none, (list.setDue i due).revised) (Reminded list list.items[i].id now) := by
    intro due hnext hbounds hrepeat
    refine steps_revised (valid_setDue hvalid hcount hdone hbounds hrepeat) rfl hrevision ?_
    exact ⟨list.items[i], hmem, rfl, hdone, hdue, hpast, rfl, due, hnext,
      live_setDue hvalid hcount due⟩
  split
  · rename_i hrepeat
    have hnext : NextDeadline list.items[i] now (nextDue list.items[i] now) := by
      refine nextDeadline_nextDue ?_ hpast hmax hrepeat
      rw [Int64.le_iff_toInt_le] at hdueMin
      omega
    split
    · exact herror _
    · rename_i hlate
      rw [gt_iff_lt, Int64.not_lt] at hlate
      have hnext' := hnext
      unfold NextDeadline at hnext'
      rw [if_neg hrepeat] at hnext'
      obtain ⟨-, -, -, hahead, -⟩ := hnext'
      rw [Int64.lt_iff_toInt_lt, not_lt, hmin'] at hmin
      refine hstep _ hnext (fun _ ↦ ⟨?_, hlate⟩) fun _ hzero ↦ ?_
      · rw [Int64.le_iff_toInt_le, hmin']
        omega
      · rw [hzero] at hahead
        rw [show (0 : Int64).toInt = 0 from rfl] at hahead
        omega
  · rename_i hrepeat
    refine hstep 0 ?_ (fun hne ↦ absurd rfl hne) fun hne ↦ absurd hne hrepeat
    unfold NextDeadline
    rw [if_pos (not_not.1 hrepeat)]

/-- What the checks of a completion or a deletion ask of its fields. -/
def TodoAction.Plain (action : TodoAction) : Prop :=
  ¬ (action.delaySeconds ≠ 0 ∨ action.repeatSeconds ≠ 0 ∨ action.title.byteAt 0 ≠ 0 ∨
    ¬ actionIdsValid action = true)

instance instDecidablePlainAction (action : TodoAction) : Decidable action.Plain :=
    inferInstanceAs (Decidable (¬ _))

/-- **Only the requested ids that occur matter**: not how often they are named, nor what else is. -/
theorem smartTodoApply_congr {action' : TodoAction} (hvalid : list.Valid)
    (hkind : action.kind = action'.kind) (hadd : action.kind ≠ .add) (hplain : action.Plain)
    (hplain' : action'.Plain)
    (h : ∀ item ∈ list.live, item.id ∈ action.requested ↔ item.id ∈ action'.requested) :
    smartTodoApply list action now = smartTodoApply list action' now := by
  have hrequests : ∀ item ∈ list.live,
      actionRequestsId action item.id = actionRequestsId action' item.id := by
    intro item hmem
    rw [Bool.eq_iff_iff, actionRequestsId_iff, actionRequestsId_iff]
    exact h item hmem
  have hkept : keptItems list action = keptItems list action' := by
    refine compact_congr fun item hmem ↦ ?_
    rw [hrequests item hmem]
  have hcompletes : completes list action = completes list action' := by
    funext i
    unfold completes
    by_cases hi : i < list.count.toNat
    · rw [hrequests _ ((mem_live_iff hvalid.count_le).2 ⟨i, hi, rfl⟩)]
    · simp [hi]
  have hcompleted : completeItems list action = completeItems list action' := by
    unfold completeItems
    rw [hcompletes]
  unfold smartTodoApply
  unfold TodoAction.Plain at hplain hplain'
  have hadd' : ¬ action'.kind = .add := hkind ▸ hadd
  simp only [hkept, hcompletes, hcompleted, if_neg hplain, if_neg hplain', hkind, if_neg hadd']

/-- **The TODO list.** Adding, completing, deleting and reminding fail with the list as it was, or
do what they say, keep the list valid and count one revision; ids that are named twice or that do
not occur have no further effect. -/
theorem todo_operations (list : TodoList) (hvalid : smartTodoValid list = true) (now : Int64) :
    (∀ action, Steps list (smartTodoApply list action now) (Applied list action now)) ∧
    (∀ id, Steps list (smartTodoReminded list id now) (Reminded list id now)) ∧
    ∀ action action' : TodoAction, action.kind = action'.kind → action.kind ≠ .add →
      action.Plain → action'.Plain →
      (∀ item ∈ list.live, item.id ∈ action.requested ↔ item.id ∈ action'.requested) →
        smartTodoApply list action now = smartTodoApply list action' now :=
  have h : list.Valid := smartTodoValid_iff.1 hvalid
  ⟨fun action ↦ steps_smartTodoApply h action now, fun id ↦ steps_smartTodoReminded h id now,
    fun _ _ hkind hadd hplain hplain' hids ↦
      smartTodoApply_congr h hkind hadd hplain hplain' hids⟩

/-- A list of two, of which one is repeated every day. -/
def twoTodos : TodoList where
  revision := 3
  nextId := 8
  count := 2
  items := (Vector.replicate todoCapacity .zero).set 0
    ⟨2, false, .ofBytes (ascii ['m', 'i', 'l', 'k']), 1800000000, 86400⟩ |>.set 1
    ⟨7, false, .ofBytes (ascii ['t', 'e', 'a']), 0, 0⟩

/-- Delete the items with these ids. -/
def deleteTodos (idCount : UInt8) (ids : Vector UInt32 todoCapacity) : TodoAction :=
  ⟨.delete, 0, idCount, ids, .empty, 0, 0⟩

/-- A deletion of an id that comes twice, and of one that is not there. -/
theorem todo_operations_two :
    smartTodoValid twoTodos = true ∧
      smartTodoApply twoTodos (deleteTodos 3 #v[2, 2, 9, 0, 0, 0, 0, 0, 0, 0, 0, 0]) 0 =
        smartTodoApply twoTodos (deleteTodos 1 #v[2, 0, 0, 0, 0, 0, 0, 0, 0, 0, 0, 0]) 0 ∧
      ((smartTodoApply twoTodos (deleteTodos 1 #v[2, 0, 0, 0, 0, 0, 0, 0, 0, 0, 0, 0]) 0).2.live.map
        fun item ↦ (item.id, item.title.bytes)) = [(1, ascii ['t', 'e', 'a'])] := by
  have hvalid : smartTodoValid twoTodos = true := by decide +kernel
  refine ⟨hvalid, (todo_operations twoTodos hvalid 0).2.2 _ _ rfl ?_ ?_ ?_ ?_, ?_⟩
  all_goals decide +kernel

end VibeUsage
