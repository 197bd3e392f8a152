import VibeUsage.Storage.Auth
import VibeUsage.Todo.Valid

/-!
# The record of a TODO list

`smart_todo_encode` writes a header, one slot of fixed size for each item of the array and a
checksum over both; what no field covers is zero. A deadline takes 32 of its 64 bits and a title its
array without the terminator, which the bounds of a valid list make room for.

* `decodeTodoItem_encodeTodoItem` is one slot, `smartTodoDecode_encode` the record.
* `todo_round_trip` has both directions: a valid list comes back, and what is decoded is valid.
-/

namespace VibeUsage

open Codec (fromU32)

/-- The bytes of one slot. -/
def todoSlotBytes : ℕ := 120

/-- `SMART_TODO_WIRE_BYTES` -/
def todoWireBytes : ℕ := 24 + todoCapacity * todoSlotBytes + 4

/-- `"VTOD"` -/
def todoMagic : List UInt8 := ascii ['V', 'T', 'O', 'D']

/-- `crc32` of `smart_todo.c`, which takes the steps of `vibe_crc32`. -/
def todoCrc32 (data : List UInt8) : UInt32 := ~~~data.foldl crcByte 0xFFFFFFFF

/-! ### Encoding -/

/-- The fields of a slot before the title. -/
def todoSlotFields (item : TodoItem) : List UInt8 :=
  Codec.u32 item.id ++ ((if item.completed then 1 else 0) :: List.replicate 3 0) ++
    Codec.u32 item.dueUtc.toUInt64.toUInt32 ++ Codec.u32 item.repeatSeconds

def encodeTodoItem (item : TodoItem) : List UInt8 :=
  todoSlotFields item ++
    (item.title.bytes ++ List.replicate (todoSlotBytes - 16 - item.title.bytes.length) 0)

/-- A slot of the zeroed buffer, written when it is in use. -/
def encodeTodoSlot (list : TodoList) (i : Fin todoCapacity) : List UInt8 :=
  if i < list.count.toNat then encodeTodoItem list.items[i] else List.replicate todoSlotBytes 0

def todoHeader (list : TodoList) : List UInt8 :=
  todoMagic ++ Codec.u32 1 ++ Codec.u32 list.revision ++ Codec.u32 list.nextId ++
    (list.count :: List.replicate 7 0)

def todoBody (list : TodoList) : List UInt8 :=
  todoHeader list ++ (List.finRange todoCapacity).flatMap (encodeTodoSlot list)

/-- The bytes `smart_todo_encode` writes to a buffer of `size` bytes. -/
def smartTodoEncode (list : TodoList) (size : ℕ) : Except EspErr (List UInt8) :=
  if ¬ smartTodoValid list ∨ size ≠ todoWireBytes then .error .invalidArg
  else .ok (todoBody list ++ Codec.u32 (todoCrc32 (todoBody list)))

/-! ### Decoding -/

/-- The item of a slot, unless its flag or its title is malformed. -/
def decodeTodoItem (p : List UInt8) : Option TodoItem :=
  if p.getD 4 0 > 1 ∨ 0 ∉ bytesAt p 16 todoTitleBytes then none
  else some {
    id := fromU32 (bytesAt p 0 4)
    completed := p.getD 4 0 ≠ 0
    title := CString.ofBytes (bytesAt p 16 todoTitleBytes)
    dueUtc := Int64.ofNat (fromU32 (bytesAt p 8 4)).toNat
    repeatSeconds := fromU32 (bytesAt p 12 4) }

/-- The item of the slot at an index. -/
def decodeTodoSlot (data : List UInt8) (i : Fin todoCapacity) : Option TodoItem :=
  decodeTodoItem (data.drop (24 + i * todoSlotBytes))

/-- The list that is read, before it is checked. -/
def todoCandidate (data : List UInt8) : TodoList where
  revision := fromU32 (bytesAt data 8 4)
  nextId := fromU32 (bytesAt data 12 4)
  count := data.getD 16 0
  items := .ofFn fun i ↦
    if i < (data.getD 16 0).toNat then (decodeTodoSlot data i).getD .zero else .zero

/-- `smart_todo_decode`: the error, if any, and the caller's list. -/
def smartTodoDecode (data : List UInt8) (list : TodoList) : Option EspErr × TodoList :=
  if data.length ≠ todoWireBytes ∨ bytesAt data 0 4 ≠ todoMagic ∨ fromU32 (bytesAt data 4 4) ≠ 1 ∨
      fromU32 (bytesAt data (data.length - 4) 4) ≠ todoCrc32 (data.take (data.length - 4)) ∨
      (data.getD 16 0).toNat > todoCapacity then (some .invalidResponse, list)
  else if ∃ i : Fin todoCapacity, i < (data.getD 16 0).toNat ∧ decodeTodoSlot data i = none then
    (some .invalidResponse, list)
  else if ¬ smartTodoValid (todoCandidate data) then (some .invalidResponse, list)
  else (none, todoCandidate data)

/-! ### One slot -/

/-- The fields of a slot before its title. -/
theorem length_todoSlotFields (item : TodoItem) : (todoSlotFields item).length = 16 := by
  unfold todoSlotFields
  simp only [List.length_append, Codec.length_u32, List.length_cons, List.length_replicate]

/-- A title fits its slot. -/
theorem length_title {item : TodoItem} {nextId : UInt32} (h : item.Valid nextId) :
    item.title.bytes.length ≤ 96 := Nat.le_of_lt_succ (textValid_iff.1 h.title).1

/-- An item fills its slot. -/
theorem length_encodeTodoItem {item : TodoItem} (h : item.title.bytes.length ≤ 96) :
    (encodeTodoItem item).length = todoSlotBytes := by
  have hslot : todoSlotBytes = 120 := rfl
  unfold encodeTodoItem
  rw [List.length_append, length_todoSlotFields, List.length_append, List.length_replicate, hslot]
  omega

/-- The 32 bits of a valid deadline are all it has. -/
theorem ofNat_toUInt32_due {due : Int64} (h : 0 ≤ due.toInt) (h' : due.toInt < 2 ^ 32) :
    Int64.ofNat due.toUInt64.toUInt32.toNat = due := by
  have hnat : due.toUInt64.toNat = due.toInt.toNat :=
    Int64.toNat_toUInt64_of_le (Int64.le_iff_toInt_le.2 h)
  have hword : due.toUInt64.toUInt32.toNat = due.toInt.toNat := by
    rw [UInt64.toNat_toUInt32, hnat]
    exact Nat.mod_eq_of_lt (by omega)
  rw [hword]
  refine Int64.toInt_inj.1 ?_
  rw [Int64.toInt_ofNat_of_lt (by omega)]
  exact Int.toNat_of_nonneg h

/-- **A slot comes back** as the item it was written from. -/
theorem decodeTodoItem_encodeTodoItem {item : TodoItem} {nextId : UInt32} (h : item.Valid nextId)
    (rest : List UInt8) : decodeTodoItem (encodeTodoItem item ++ rest) = some item := by
  have hlen := length_title h
  have hslot : todoSlotBytes = 120 := rfl
  -- the fields before the title
  have hflag : (encodeTodoItem item ++ rest).getD 4 0 = if item.completed then 1 else 0 := rfl
  have hid : bytesAt (encodeTodoItem item ++ rest) 0 4 = Codec.u32 item.id := rfl
  have hdueBytes : bytesAt (encodeTodoItem item ++ rest) 8 4 =
      Codec.u32 item.dueUtc.toUInt64.toUInt32 := rfl
  have hrepeat : bytesAt (encodeTodoItem item ++ rest) 12 4 = Codec.u32 item.repeatSeconds := rfl
  -- the title, with at least one zero after it
  have htitle : bytesAt (encodeTodoItem item ++ rest) 16 todoTitleBytes =
      item.title.bytes ++ 0 :: List.replicate (96 - item.title.bytes.length) 0 := by
    have hpad : List.replicate (todoSlotBytes - 16 - item.title.bytes.length) (0 : UInt8) =
        0 :: List.replicate (96 - item.title.bytes.length) 0 ++ List.replicate 7 0 := by
      rw [← List.replicate_succ, ← List.replicate_add]
      congr 1
      omega
    have htake : (item.title.bytes ++
        0 :: List.replicate (96 - item.title.bytes.length) 0).length = todoTitleBytes := by
      rw [List.length_append, List.length_cons, List.length_replicate]
      show _ = 97
      omega
    have hdrop : (encodeTodoItem item ++ rest).drop 16 =
        (item.title.bytes ++ 0 :: List.replicate (96 - item.title.bytes.length) 0) ++
          (List.replicate 7 0 ++ rest) := by
      unfold encodeTodoItem
      rw [List.append_assoc, List.drop_left' (length_todoSlotFields item), hpad]
      simp only [List.append_assoc]
    unfold bytesAt
    rw [hdrop, List.take_left' htake]
  have hdue : Int64.ofNat item.dueUtc.toUInt64.toUInt32.toNat = item.dueUtc := by
    by_cases hzero : item.dueUtc = 0
    · rw [hzero]
      rfl
    · obtain ⟨hmin, hmax⟩ := h.due hzero
      have hmin' : todoTimeMin.toInt = 1704067200 := rfl
      have hmax' : todoTimeMax.toInt = 4102444800 := rfl
      rw [Int64.le_iff_toInt_le] at hmin hmax
      exact ofNat_toUInt32_due (by omega) (by omega)
  have hstring : CString.ofBytes
      (item.title.bytes ++ 0 :: List.replicate (96 - item.title.bytes.length) 0) = item.title := by
    have hne : ∀ b ∈ item.title.bytes, decide (b ≠ 0) = true := by
      intro b hb
      exact decide_eq_true fun hb0 ↦ item.title.noNul (hb0 ▸ hb)
    refine CString.ext ?_
    rw [CString.ofBytes_bytes, List.takeWhile_append_of_pos hne]
    simp
  have hflag' : ¬ ((if item.completed then (1 : UInt8) else 0) > 1 ∨
      0 ∉ item.title.bytes ++ 0 :: List.replicate (96 - item.title.bytes.length) 0) := by
    simp only [List.mem_append, List.mem_cons, true_or, or_true, not_true_eq_false, or_false]
    cases item.completed <;> decide
  have hcompleted : decide ((if item.completed then (1 : UInt8) else 0) ≠ 0) = item.completed := by
    cases item.completed <;> decide
  unfold decodeTodoItem
  rw [hflag, hid, hdueBytes, hrepeat, htitle, hstring, Codec.fromU32_u32, Codec.fromU32_u32,
    Codec.fromU32_u32, hdue, if_neg hflag', hcompleted]

/-! ### The whole record -/

variable {list : TodoList}

/-- So does every slot of a valid list. -/
theorem length_encodeTodoSlot (h : list.Valid) (i : Fin todoCapacity) :
    (encodeTodoSlot list i).length = todoSlotBytes := by
  unfold encodeTodoSlot
  split
  · rename_i hi
    exact length_encodeTodoItem
      (length_title (h.items _ ((mem_live_iff h.count_le).2 ⟨i, hi, rfl⟩)))
  · exact List.length_replicate

/-- Blocks of one size are skipped by their number. -/
theorem drop_flatMap {α β : Type*} {f : α → List β} {size : ℕ} :
    ∀ {l : List α}, (∀ a ∈ l, (f a).length = size) → ∀ i,
      (l.flatMap f).drop (i * size) = (l.drop i).flatMap f
  | [], _, i => by simp
  | a :: l, h, 0 => by simp
  | a :: l, h, i + 1 => by
    have ha : (f a).length = size := h a List.mem_cons_self
    have hl := drop_flatMap (fun b hb ↦ h b (List.mem_cons_of_mem a hb)) i
    rw [List.drop_succ_cons, ← hl, List.flatMap_cons, Nat.succ_mul, Nat.add_comm, ← List.drop_drop,
      List.drop_left' ha]

/-- The header has a fixed length. -/
theorem length_todoHeader (list : TodoList) : (todoHeader list).length = 24 := by
  have hmagic : todoMagic.length = 4 := rfl
  unfold todoHeader
  simp only [List.length_append, Codec.length_u32, List.length_cons, List.length_replicate, hmagic]

/-- So has the list before its checksum. -/
theorem length_todoBody (h : list.Valid) : (todoBody list).length = todoWireBytes - 4 := by
  unfold todoBody
  rw [List.length_append, length_todoHeader, List.length_flatMap]
  simp only [length_encodeTodoSlot h]
  rfl

/-- Every slot in use is read as its item. -/
theorem decodeTodoSlot_todoBody (h : list.Valid) {i : Fin todoCapacity}
    (hi : i < list.count.toNat) (rest : List UInt8) :
    decodeTodoSlot (todoBody list ++ rest) i = some list.items[i] := by
  have hmem : list.items[i] ∈ list.live := (mem_live_iff h.count_le).2 ⟨i, hi, rfl⟩
  have hblocks : ∀ j ∈ List.finRange todoCapacity, (encodeTodoSlot list j).length = todoSlotBytes :=
    fun j _ ↦ length_encodeTodoSlot h j
  have hdrop : (List.finRange todoCapacity).drop i =
    i :: (List.finRange todoCapacity).drop (i + 1) := by
    have hlt : i.val < (List.finRange todoCapacity).length := by simp
    rw [List.drop_eq_getElem_cons hlt, List.getElem_finRange]
    rfl
  have hlen : ((List.finRange todoCapacity).flatMap (encodeTodoSlot list)).length =
      todoCapacity * todoSlotBytes := by
    rw [List.length_flatMap]
    simp only [length_encodeTodoSlot h]
    rfl
  have hle : i * todoSlotBytes ≤ todoCapacity * todoSlotBytes :=
    Nat.mul_le_mul_right _ (Nat.le_of_lt i.isLt)
  unfold decodeTodoSlot todoBody
  rw [← List.drop_drop, List.append_assoc, List.drop_left' (length_todoHeader list),
    List.drop_append_of_le_length (by rw [hlen]; exact hle), drop_flatMap hblocks, hdrop,
    List.flatMap_cons, List.append_assoc]
  unfold encodeTodoSlot
  rw [if_pos hi]
  exact decodeTodoItem_encodeTodoItem (h.items _ hmem) _

/-- **A valid list comes back**, as far as it is in use. -/
theorem smartTodoDecode_encode (h : list.Valid) (old : TodoList) :
    ∃ decoded, smartTodoDecode (todoBody list ++ Codec.u32 (todoCrc32 (todoBody list))) old =
        (none, decoded) ∧ decoded.revision = list.revision ∧ decoded.nextId = list.nextId ∧
      decoded.count = list.count ∧ decoded.live = list.live := by
  generalize hcrc : Codec.u32 (todoCrc32 (todoBody list)) = crc
  have hcrcLength : crc.length = 4 := by rw [← hcrc]; rfl
  have hbody := length_todoBody h
  have hlen : (todoBody list ++ crc).length = todoWireBytes := by
    rw [List.length_append, hbody, hcrcLength]
    rfl
  -- The header is read back word by word, at the offsets where it was written.
  have hwords : bytesAt (todoBody list ++ crc) 0 4 = todoMagic ∧
      bytesAt (todoBody list ++ crc) 4 4 = Codec.u32 1 ∧
      bytesAt (todoBody list ++ crc) 8 4 = Codec.u32 list.revision ∧
      bytesAt (todoBody list ++ crc) 12 4 = Codec.u32 list.nextId ∧
      (todoBody list ++ crc).getD 16 0 = list.count := ⟨rfl, rfl, rfl, rfl, rfl⟩
  obtain ⟨hmagic, hversion, hrevision, hnext, hcount⟩ := hwords
  have htrailer : bytesAt (todoBody list ++ crc) (todoWireBytes - 4) 4 = crc := by
    unfold bytesAt
    rw [List.drop_left' hbody]
    exact List.take_of_length_le (Nat.le_of_eq hcrcLength)
  have hdata : (todoBody list ++ crc).take (todoWireBytes - 4) = todoBody list :=
    List.take_left' hbody
  have hone : fromU32 (Codec.u32 1) = 1 := Codec.fromU32_u32 1
  have hsum : fromU32 crc = todoCrc32 (todoBody list) := by rw [← hcrc, Codec.fromU32_u32]
  -- Every slot in use decodes, so none is a reason to refuse the list.
  have hslots : ¬ ∃ i : Fin todoCapacity, i < list.count.toNat ∧
      decodeTodoSlot (todoBody list ++ crc) i = none := by
    rintro ⟨i, hi, hnone⟩
    rw [decodeTodoSlot_todoBody h hi] at hnone
    cases hnone
  have hcand : (todoCandidate (todoBody list ++ crc)).revision = list.revision ∧
      (todoCandidate (todoBody list ++ crc)).nextId = list.nextId ∧
      (todoCandidate (todoBody list ++ crc)).count = list.count := by
    unfold todoCandidate
    dsimp only
    rw [hrevision, hnext, hcount, Codec.fromU32_u32, Codec.fromU32_u32]
    exact ⟨rfl, rfl, rfl⟩
  obtain ⟨hrev, hnextId, hcnt⟩ := hcand
  have hcntLe : (todoCandidate (todoBody list ++ crc)).count.toNat ≤ todoCapacity := by
    rw [hcnt]
    exact h.count_le
  have hlive : (todoCandidate (todoBody list ++ crc)).live = list.live := by
    refine List.ext_getElem ?_ fun i hi hi' ↦ ?_
    · rw [length_live hcntLe, length_live h.count_le, hcnt]
    · have hlt : i < list.count.toNat := by rwa [length_live h.count_le] at hi'
      have hcap : i < todoCapacity := Nat.lt_of_lt_of_le hlt h.count_le
      rw [getElem_live _ hcap, getElem_live _ hcap]
      show (Vector.ofFn _)[i] = _
      rw [Vector.getElem_ofFn, hcount, if_pos hlt,
        decodeTodoSlot_todoBody h (i := ⟨i, hcap⟩) hlt]
      rfl
  have hvalid : smartTodoValid (todoCandidate (todoBody list ++ crc)) = true := by
    rw [smartTodoValid_iff]
    refine ⟨hcntLe, ?_, ?_, ?_⟩
    · rw [hnextId]
      exact h.nextId_ne
    · rw [hlive, hnextId]
      exact h.items
    · rw [hlive]
      exact h.ids
  refine ⟨todoCandidate (todoBody list ++ crc), ?_, hrev, hnextId, hcnt, hlive⟩
  unfold smartTodoDecode
  rw [hlen, hmagic, hversion, htrailer, hdata, hcount, hsum, hone,
    if_neg (by simpa using h.count_le), if_neg hslots, if_neg (not_not.2 hvalid)]

/-- A list that is returned has passed `smart_todo_valid`, and a failure returns the caller's. -/
theorem smartTodoDecode_cases (data : List UInt8) (old : TodoList) :
    smartTodoDecode data old = (some .invalidResponse, old) ∨
      (smartTodoDecode data old = (none, todoCandidate data) ∧
        smartTodoValid (todoCandidate data) = true) := by
  unfold smartTodoDecode
  split
  · exact Or.inl rfl
  split
  · exact Or.inl rfl
  split
  · exact Or.inl rfl
  · rename_i hvalid
    exact Or.inr ⟨rfl, not_not.1 hvalid⟩

/-- **The record of a TODO list**: every valid list is encoded and comes back, whatever is decoded
is valid, and what is not decoded leaves the caller's list alone. -/
theorem todo_round_trip :
    (∀ list, smartTodoValid list = true → ∃ data, smartTodoEncode list todoWireBytes = .ok data ∧
      data.length = todoWireBytes ∧ ∀ old, ∃ decoded, smartTodoDecode data old = (none, decoded) ∧
        decoded.revision = list.revision ∧ decoded.nextId = list.nextId ∧
        decoded.count = list.count ∧ decoded.live = list.live) ∧
    (∀ data old decoded, smartTodoDecode data old = (none, decoded) →
      smartTodoValid decoded = true) ∧
    ∀ data old error after, smartTodoDecode data old = (some error, after) → after = old := by
  refine ⟨fun list hvalid ↦ ?_, fun data old decoded h ↦ ?_, fun data old error after h ↦ ?_⟩
  · have h : list.Valid := smartTodoValid_iff.1 hvalid
    refine ⟨_, if_neg (by simp [hvalid]), ?_, smartTodoDecode_encode h⟩
    rw [List.length_append, length_todoBody h]
    rfl
  · rcases smartTodoDecode_cases data old with hcase | ⟨hcase, hvalid⟩
    · rw [hcase] at h
      cases h
    · rw [hcase] at h
      obtain rfl := (Prod.mk.inj h).2
      exact hvalid
  · rcases smartTodoDecode_cases data old with hcase | ⟨hcase, -⟩
    · rw [hcase] at h
      exact (Prod.mk.inj h).2.symm
    · rw [hcase] at h
      cases h

end VibeUsage
