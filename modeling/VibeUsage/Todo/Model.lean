import VibeUsage.Lib.Compaction
import VibeUsage.Lib.Slots
import VibeUsage.Storage.Nvs
import VibeUsage.Todo.Text

/-!
# The TODO list

The list of `smart_todo.c` and its operations: an array of `SMART_TODO_CAPACITY` items of which the
first `count` are in use. An operation checks the list with `smart_todo_valid`, then works on the
array in place, so the caller's list is threaded through its failures as well.

`now` is an argument of the operations, as it is in the source, so that nothing here depends on a
clock. The result of an operation is its code and the list.
-/

namespace VibeUsage

open Compaction (compact)

/-- `SMART_TODO_CAPACITY` -/
def todoCapacity : ℕ := 12

/-- `SMART_TODO_TITLE_BYTES` -/
def todoTitleBytes : ℕ := 97

/-- `SMART_TODO_MAX_INTERVAL` -/
def todoMaxInterval : UInt32 := 366 * 86400

/-- `SMART_TODO_TIME_MIN` -/
def todoTimeMin : Int64 := 1704067200

/-- `SMART_TODO_TIME_MAX` -/
def todoTimeMax : Int64 := 4102444800

/-- `UINT32_MAX` -/
def uint32Max : UInt32 := 0xFFFFFFFF

/-- A `smart_todo_item_t`. -/
structure TodoItem where
  id : UInt32
  completed : Bool
  title : CString
  dueUtc : Int64
  repeatSeconds : UInt32
  deriving DecidableEq, Inhabited

/-- An item of a zeroed array. -/
def TodoItem.zero : TodoItem := ⟨0, false, .empty, 0, 0⟩

/-- A `smart_todo_list_t`. -/
structure TodoList where
  revision : UInt32
  nextId : UInt32
  count : UInt8
  items : Vector TodoItem todoCapacity
  deriving DecidableEq

/-- A `smart_todo_action_kind_t`. -/
inductive TodoActionKind
  | add
  | complete
  | delete
  | noop
  deriving DecidableEq

/-- A `smart_todo_action_t`. -/
structure TodoAction where
  kind : TodoActionKind
  id : UInt32
  idCount : UInt8
  ids : Vector UInt32 todoCapacity
  title : CString
  delaySeconds : UInt32
  repeatSeconds : UInt32
  deriving DecidableEq

/-- `smart_todo_init` -/
def smartTodoInit : TodoList := ⟨0, 1, 0, .replicate todoCapacity .zero⟩

/-! ### Validity -/

/-- What `smart_todo_valid` asks of the fields of one item. -/
def itemValid (item : TodoItem) (nextId : UInt32) : Bool :=
  ¬ (item.id = 0 ∨ item.id ≥ nextId ∨ ¬ textValid item.title todoTitleBytes ∨
    item.repeatSeconds > todoMaxInterval ∨
    (item.repeatSeconds ≠ 0 ∧ item.repeatSeconds < 60) ∨
    (item.dueUtc ≠ 0 ∧ (item.dueUtc < todoTimeMin ∨ item.dueUtc > todoTimeMax)) ∨
    (item.completed ∧ (item.dueUtc ≠ 0 ∨ item.repeatSeconds ≠ 0)) ∨
    (item.repeatSeconds ≠ 0 ∧ item.dueUtc = 0))

def smartTodoValid (list : TodoList) : Bool :=
  list.count.toNat ≤ todoCapacity ∧ list.nextId ≠ 0 ∧
    ∀ i : Fin todoCapacity, i < list.count.toNat →
      itemValid list.items[i] list.nextId ∧ ∀ j < i, list.items[i].id ≠ list.items[j].id

/-! ### Operations -/

def actionIdsValid (action : TodoAction) : Bool :=
  if action.id ≠ 0 ∧ action.idCount ≠ 0 then false
  else if action.idCount.toNat > todoCapacity then false
  else if action.id ≠ 0 then action.id < uint32Max
  else if action.idCount = 0 then false
  else ∀ i : Fin todoCapacity, i < action.idCount.toNat →
    ¬ (action.ids[i] = 0 ∨ action.ids[i] = uint32Max)

/-- `action_requests_id`, which is asked only once the ids have been checked. -/
def actionRequestsId (action : TodoAction) (id : UInt32) : Bool :=
  if action.idCount = 0 then action.id = id
  else ∃ i : Fin todoCapacity, i < action.idCount.toNat ∧ action.ids[i] = id

/-- What `smart_todo_apply` asks of an action that adds. -/
def addValid (action : TodoAction) : Bool :=
  ¬ (action.id ≠ 0 ∨ action.idCount ≠ 0 ∨ ¬ textValid action.title todoTitleBytes ∨
    action.delaySeconds > todoMaxInterval ∨ action.repeatSeconds > todoMaxInterval ∨
    (action.repeatSeconds ≠ 0 ∧ action.repeatSeconds < 60))

/-- The seconds to the deadline of an item to add. -/
def addDelay (action : TodoAction) : UInt32 :=
  if action.delaySeconds ≠ 0 then action.delaySeconds else action.repeatSeconds

/-- The item that is added. -/
def addedItem (list : TodoList) (action : TodoAction) (now : Int64) : TodoItem where
  id := list.nextId
  completed := false
  title := action.title
  dueUtc := if addDelay action ≠ 0 then now + Int64.ofNat (addDelay action).toNat else 0
  repeatSeconds := action.repeatSeconds

def appendItem (list : TodoList) (action : TodoAction) (now : Int64) : TodoList :=
  { list with
    items := list.items.setIfInBounds list.count.toNat (addedItem list action now)
    count := list.count + 1
    nextId := list.nextId + 1 }

/-- Whether `smart_todo_apply` completes the item at an index. -/
def completes (list : TodoList) (action : TodoAction) (i : Fin todoCapacity) : Bool :=
  i < list.count.toNat ∧ actionRequestsId action list.items[i].id ∧ ¬ list.items[i].completed

def TodoItem.done (item : TodoItem) : TodoItem :=
  { item with completed := true, dueUtc := 0, repeatSeconds := 0 }

/-- The loop that completes items. -/
def completeItems (list : TodoList) (action : TodoAction) : TodoList :=
  { list with
    items := .ofFn fun i ↦ if completes list action i then list.items[i].done else list.items[i] }

/-- The loop that compacts the array over the items to delete. -/
def keptItems (list : TodoList) (action : TodoAction) : Vector TodoItem todoCapacity × ℕ :=
  compact (fun item ↦ ¬ actionRequestsId action item.id) list.items list.count.toNat

/-- After the loop: what is no longer in use is cleared, the rest is numbered anew. -/
def renumber (list : TodoList) (items : Vector TodoItem todoCapacity) (write : ℕ) : TodoList :=
  { list with
    items := .ofFn fun i ↦
      if i < write then { items[i] with id := UInt32.ofNat (i + 1) }
      else if i < list.count.toNat then .zero else items[i]
    count := UInt8.ofNat write
    nextId := UInt32.ofNat (write + 1) }

/-- `++list->revision` -/
def TodoList.revised (list : TodoList) : TodoList := { list with revision := list.revision + 1 }

/-- `smart_todo_apply`: the error, if any, and the caller's list. -/
def smartTodoApply (list : TodoList) (action : TodoAction) (now : Int64) :
    Option EspErr × TodoList :=
  if ¬ smartTodoValid list then (some .invalidArg, list)
  else if action.kind = .noop then (some .notFound, list)
  else if list.revision = uint32Max then (some .invalidState, list)
  else if action.kind = .add then
    if list.count.toNat = todoCapacity ∨ list.nextId = uint32Max then (some .noMem, list)
    else if ¬ addValid action then (some .invalidArg, list)
    else if addDelay action ≠ 0 ∧
        (now < todoTimeMin ∨ now > todoTimeMax - Int64.ofNat (addDelay action).toNat) then
      (some .invalidState, list)
    else (none, (appendItem list action now).revised)
  else if action.delaySeconds ≠ 0 ∨ action.repeatSeconds ≠ 0 ∨ action.title.byteAt 0 ≠ 0 ∨
      ¬ actionIdsValid action then (some .invalidArg, list)
  else if action.kind = .complete then
    if ∃ i, completes list action i then (none, (completeItems list action).revised)
    else (some .notFound, completeItems list action)
  else
    let (items, write) := keptItems list action
    if write = list.count.toNat then (some .notFound, { list with items })
    else (none, (renumber list items write).revised)

/-- Whether the reminder of an item is due. -/
def itemDue (item : TodoItem) (now : Int64) : Bool :=
  ¬ item.completed ∧ item.dueUtc ≠ 0 ∧ item.dueUtc ≤ now

/-- The loop of `smart_todo_due`: the first item so far with the least deadline. -/
def dueStep (list : TodoList) (now : Int64) (first : Option (Fin todoCapacity))
    (i : Fin todoCapacity) : Option (Fin todoCapacity) :=
  if i < list.count.toNat ∧ itemDue list.items[i] now ∧
      ∀ j ∈ first, list.items[i].dueUtc < list.items[j].dueUtc then some i
  else first

/-- `smart_todo_due`: the id of the item to remind of, or zero. -/
def smartTodoDue (list : TodoList) (now : Int64) : UInt32 :=
  if ¬ smartTodoValid list ∨ now < todoTimeMin ∨ now > todoTimeMax then 0
  else
    match (List.finRange todoCapacity).foldl (dueStep list now) none with
    | none => 0
    | some i => list.items[i].id

/-- The deadline after a reminder at `now`. -/
def nextDue (item : TodoItem) (now : Int64) : Int64 :=
  let period := Int64.ofNat item.repeatSeconds.toNat
  item.dueUtc + ((now - item.dueUtc) / period + 1) * period

/-- The item with an id that `smart_todo_reminded` finds. -/
def itemWithId (list : TodoList) (id : UInt32) : Option (Fin todoCapacity) :=
  (List.finRange todoCapacity).find? fun i ↦ i < list.count.toNat ∧ list.items[i].id = id

def TodoList.setDue (list : TodoList) (i : Fin todoCapacity) (due : Int64) : TodoList :=
  { list with items := list.items.set i { list.items[i] with dueUtc := due } i.isLt }

/-- `smart_todo_reminded`: the error, if any, and the caller's list. -/
def smartTodoReminded (list : TodoList) (id : UInt32) (now : Int64) : Option EspErr × TodoList :=
  if ¬ smartTodoValid list ∨ now < todoTimeMin ∨ now > todoTimeMax ∨ list.revision = uint32Max then
    (some .invalidArg, list)
  else
    match itemWithId list id with
    | none => (some .notFound, list)
    | some i =>
      let item := list.items[i]
      if item.completed ∨ item.dueUtc = 0 ∨ item.dueUtc > now then (some .invalidState, list)
      else if item.repeatSeconds ≠ 0 then
        if nextDue item now > todoTimeMax then (some .invalidState, list)
        else (none, (list.setDue i (nextDue item now)).revised)
      else (none, (list.setDue i 0).revised)

end VibeUsage
