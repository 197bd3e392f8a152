import VibeUsage.Gateway.Chat
import VibeUsage.JsonSafety
import VibeUsage.Lib.JsonUnique

/-!
# The gateway's actions on the device

What `validate_action` returns is the JSON of a `GatewayAction`, and `smart_todo_parse_action` reads
it as that action, except for two things that only the device refuses: a title with a control
character other than U+0000, and the largest id.

The one is written in Python and the other in C, so the two are compared through the JSON between
them: `GatewayAction.IsDict` says which action a `dict` is, and
`GatewayAction.IsDict.exists_members` how it is spelled. `textValid_title_iff` is the difference in
the titles.
-/

namespace VibeUsage

open Python
open Rfc8259 (Value IsText IsJsonText decimalText)

/-! ### A dict as a set of entries -/

/-- What is found under a key is an entry. -/
theorem mem_of_get {key : PyStr} {entries : List (PyStr × PyValue)} {v : PyValue}
    (h : PyValue.get key entries = some v) : (key, v) ∈ entries := by
  induction entries with
  | nil => cases h
  | cons entry entries ih =>
    obtain ⟨k, u⟩ := entry
    rw [PyValue.get] at h
    split at h
    · rename_i hk
      obtain rfl := hk
      obtain rfl := Option.some.inj h
      exact List.mem_cons_self
    · exact List.mem_cons_of_mem _ (ih h)

/-- An entry is found under its key, when no key comes twice. -/
theorem get_of_mem {key : PyStr} {entries : List (PyStr × PyValue)} {v : PyValue}
    (hnodup : (entries.map Prod.fst).Nodup) (h : (key, v) ∈ entries) :
    PyValue.get key entries = some v := by
  induction entries with
  | nil => cases h
  | cons entry entries ih =>
    obtain ⟨k, u⟩ := entry
    rw [List.map_cons, List.nodup_cons] at hnodup
    rw [PyValue.get]
    rcases List.mem_cons.1 h with h | h
    · obtain ⟨rfl, rfl⟩ := Prod.mk.inj h
      exact if_pos rfl
    · have hne : k ≠ key := by
        rintro rfl
        exact hnodup.1 (List.mem_map.2 ⟨_, h, rfl⟩)
      rw [if_neg hne]
      exact ih hnodup.2 h

/-- The keys are these, no more and no fewer. -/
theorem hasKeys_iff {entries : List (PyStr × PyValue)} {keys : List String} :
    hasKeys entries keys = true ↔ (∀ entry ∈ entries, ∃ key ∈ keys, entry.1 = py key) ∧
      ∀ key ∈ keys, ∃ entry ∈ entries, entry.1 = py key := decide_eq_true_iff

/-- A `dict` is, up to the order, what it has under its keys. -/
theorem perm_of_get {entries : List (PyStr × PyValue)} {fields : List (String × PyValue)}
    (hnodup : (entries.map Prod.fst).Nodup)
    (hfields : (fields.map fun field ↦ py field.1).Nodup)
    (hkeys : hasKeys entries (fields.map Prod.fst) = true)
    (hget : ∀ field ∈ fields, PyValue.get (py field.1) entries = some field.2) :
    entries.Perm (fields.map fun field ↦ (py field.1, field.2)) := by
  have hnodup' : (fields.map fun field ↦ (py field.1, field.2)).Nodup :=
    List.Nodup.of_map Prod.fst (by rwa [List.map_map])
  refine (List.perm_ext_iff_of_nodup hnodup.of_map hnodup').2 fun ⟨key, v⟩ ↦ ?_
  rw [List.mem_map]
  constructor
  · intro h
    obtain ⟨name, hname, hkey⟩ := (hasKeys_iff.1 hkeys).1 _ h
    obtain ⟨field, hfield, rfl⟩ := List.mem_map.1 hname
    have hv := get_of_mem hnodup h
    rw [show key = py field.1 from hkey, hget field hfield] at hv
    exact ⟨field, hfield, Prod.ext hkey.symm (Option.some.inj hv)⟩
  · rintro ⟨field, hfield, heq⟩
    rw [← heq]
    exact mem_of_get (hget field hfield)

/-! ### The shapes of an action -/

/-- What `validate_action` lets through. -/
inductive GatewayAction
  | noop
  | complete (id : ℤ)
  | delete (id : ℤ)
  | add (title : PyStr) (delay repeats : ℤ)

namespace GatewayAction

/-- The fields of its `dict`. -/
def fields : GatewayAction → List (String × PyValue)
  | noop => [("action", .str (py "noop"))]
  | complete id => [("action", .str (py "complete")), ("id", .int id)]
  | delete id => [("action", .str (py "delete")), ("id", .int id)]
  | add title delay repeats => [("action", .str (py "add")), ("title", .str title),
      ("delay_seconds", .int delay), ("repeat_seconds", .int repeats)]

/-- The fields of an action have different names. -/
theorem keys_nodup : ∀ a : GatewayAction, (a.fields.map fun field ↦ py field.1).Nodup
  | noop => show [py "action"].Nodup by decide
  | complete _ => show [py "action", py "id"].Nodup by decide
  | delete _ => show [py "action", py "id"].Nodup by decide
  | add _ _ _ => show [py "action", py "title", py "delay_seconds", py "repeat_seconds"].Nodup by
      decide

/-- A `dict` with these fields, in some order. -/
def IsDict (a : GatewayAction) (entries : List (PyStr × PyValue)) : Prop :=
  entries.Perm (a.fields.map fun field ↦ (py field.1, field.2))

/-- What is asked of the fields. -/
def Allowed (items : List ChatItem) : GatewayAction → Prop
  | noop => True
  | complete id => id ∈ items.map ChatItem.id
  | delete id => id ∈ items.map ChatItem.id
  | add title delay repeats => validText title 96 = true ∧ title.length ≤ 32 ∧
      (0 ≤ delay ∧ delay ≤ 31622400) ∧ (repeats = 0 ∨ 60 ≤ repeats ∧ repeats ≤ 31622400)

end GatewayAction

/-- **A valid action has one of the four shapes.** -/
theorem exists_of_actionValid {entries : List (PyStr × PyValue)} {items : List ChatItem}
    (hnodup : (entries.map Prod.fst).Nodup) (h : actionValid entries items = true) :
    ∃ a : GatewayAction, a.IsDict entries ∧ a.Allowed items := by
  unfold actionValid at h
  split at h
  case h_2 => cases h
  rename_i kind hkind
  split at h
  · -- nothing to do
    rename_i hnoop
    obtain rfl := hnoop
    refine ⟨.noop, perm_of_get hnodup (GatewayAction.keys_nodup _) h ?_, trivial⟩
    simpa [GatewayAction.fields] using hkind
  split at h
  · -- an item by its id
    rename_i hid
    split at h
    case h_2 => cases h
    rename_i ident hident
    rw [Bool.and_eq_true, decide_eq_true_eq] at h
    rcases hid with rfl | rfl
    · refine ⟨.complete ident, perm_of_get hnodup (GatewayAction.keys_nodup _) h.1 ?_, h.2⟩
      simpa [GatewayAction.fields] using ⟨hkind, hident⟩
    · refine ⟨.delete ident, perm_of_get hnodup (GatewayAction.keys_nodup _) h.1 ?_, h.2⟩
      simpa [GatewayAction.fields] using ⟨hkind, hident⟩
  split at h
  · rename_i hadd
    obtain rfl := hadd
    split at h
    case h_2 => cases h
    rename_i title delay repeats htitle hdelay hrepeats
    simp only [Bool.and_eq_true, decide_eq_true_eq] at h
    obtain ⟨⟨⟨⟨hkeys, hvalid⟩, hlen⟩, hdelay'⟩, hrepeats'⟩ := h
    refine ⟨.add title delay repeats, perm_of_get hnodup (GatewayAction.keys_nodup _) hkeys ?_,
      hvalid, hlen, hdelay', hrepeats'⟩
    simpa [GatewayAction.fields] using ⟨hkind, htitle, hdelay, hrepeats⟩
  · cases h

/-! ### Text on both sides -/

/-- A text that is valid is not blank, has no U+0000 and fits. -/
theorem validText_iff {text : PyStr} {max : ℕ} : validText text max = true ↔
    (∀ c ∈ text, c.val ≠ 0) ∧ strip text ≠ [] ∧
      ∃ bytes, encodeUtf8 text = some bytes ∧ bytes.length ≤ max := by
  unfold validText
  rw [Bool.and_eq_true, Bool.and_eq_true, decide_eq_true_eq, decide_eq_true_eq, and_assoc,
    Option.any_eq_true]
  simp only [decide_eq_true_eq]

/-- A text without surrogates is one of characters. -/
theorem exists_chars {text : PyStr} {bytes : List UInt8} (h : encodeUtf8 text = some bytes) :
    ∃ cs : List Char, text = cs.map point ∧ bytes = utf8 cs := by
  induction text generalizing bytes with
  | nil =>
    obtain rfl := Option.some.inj h
    exact ⟨[], rfl, rfl⟩
  | cons c text ih =>
    obtain ⟨hscalar, rest, hrest, rfl⟩ := encodeUtf8_cons h
    obtain ⟨cs, rfl, rfl⟩ := ih hrest
    refine ⟨Char.ofNat c.val :: cs, ?_, ?_⟩
    · rw [List.map_cons]
      congr 1
      exact Fin.ext (Utf8.toNat_ofNat hscalar).symm
    · rw [utf8_cons, Utf8.utf8EncodeChar_ofNat hscalar]

/-- UTF-8 can be read back. -/
theorem utf8_injective : Function.Injective utf8 := by
  intro cs
  induction cs with
  | nil =>
    intro cs' h
    cases cs' with
    | nil => rfl
    | cons c' cs' =>
      rw [utf8_nil, utf8_cons] at h
      exact absurd (List.append_eq_nil_iff.1 h.symm).1 String.utf8EncodeChar_ne_nil
  | cons c cs ih =>
    intro cs' h
    cases cs' with
    | nil =>
      rw [utf8_nil, utf8_cons] at h
      exact absurd (List.append_eq_nil_iff.1 h).1 String.utf8EncodeChar_ne_nil
    | cons c' cs' =>
      rw [utf8_cons, utf8_cons] at h
      obtain ⟨rfl, hrest⟩ := Rfc8259.utf8EncodeChar_append_inj h
      rw [ih hrest]

/-- Only U+0000 has a zero octet. -/
theorem zero_notMem_encode {n : ℕ} (h : n ≠ 0) (hle : n ≤ 0x10FFFF) : 0 ∉ Utf8.encode n := by
  have hne : ∀ m, 0 < m → m < 256 → (0 : UInt8) ≠ UInt8.ofNat m := by
    intro m hpos hlt heq
    have hzero := congrArg UInt8.toNat heq
    rw [Utf8.toNat_ofNat_of_lt hlt] at hzero
    exact hpos.ne hzero
  have htail : ∀ m, (0 : UInt8) ≠ Utf8.tail m := fun m ↦ hne _ (by omega) (by omega)
  unfold Utf8.encode
  split
  · rw [List.mem_singleton]
    exact hne n (by omega) (by omega)
  split
  · simp only [List.mem_cons, List.not_mem_nil, or_false, not_or]
    exact ⟨hne _ (by omega) (by omega), htail _⟩
  split
  · simp only [List.mem_cons, List.not_mem_nil, or_false, not_or]
    exact ⟨hne _ (by omega) (by omega), htail _, htail _⟩
  · simp only [List.mem_cons, List.not_mem_nil, or_false, not_or]
    exact ⟨hne _ (by omega) (by omega), htail _, htail _, htail _⟩

/-- A text without U+0000 has no zero byte. -/
theorem zero_notMem_encodeUtf8 {text : PyStr} {bytes : List UInt8}
    (h : encodeUtf8 text = some bytes) (hnul : ∀ c ∈ text, c.val ≠ 0) : 0 ∉ bytes := by
  induction text generalizing bytes with
  | nil =>
    obtain rfl := Option.some.inj h
    exact List.not_mem_nil
  | cons c text ih =>
    obtain ⟨hscalar, rest, hrest, rfl⟩ := encodeUtf8_cons h
    rw [List.mem_append, not_or]
    exact ⟨zero_notMem_encode (hnul c List.mem_cons_self) hscalar.1,
      ih hrest fun d hd ↦ hnul d (List.mem_cons_of_mem _ hd)⟩

/-- A text of spaces has nothing left of it. -/
theorem strip_eq_nil {text : PyStr} (h : ∀ c ∈ text, isSpace c = true) : strip text = [] := by
  have hdrop : text.dropWhile isSpace = [] := List.dropWhile_eq_nil_iff.2 h
  unfold strip stripWhere
  rw [hdrop]
  rfl

/-- **A title that the gateway accepts is one on the device** when it has no control character. -/
theorem textValid_title_iff {title : PyStr} {bytes : List UInt8} (h : validText title 96 = true)
    (hbytes : encodeUtf8 title = some bytes) :
    textValid (.ofBytes bytes) todoTitleBytes = true ↔
      ∀ c ∈ title, 0x20 ≤ c.val ∧ c.val ≠ 0x7F := by
  obtain ⟨hnul, hstrip, bytes', hbytes', hlength⟩ := validText_iff.1 h
  obtain rfl := Option.some.inj (hbytes.symm.trans hbytes')
  obtain ⟨cs, rfl, rfl⟩ := exists_chars hbytes
  rw [textValid_iff, CString.ofBytes_bytes_of_noNul (zero_notMem_encodeUtf8 hbytes hnul)]
  constructor
  · rintro ⟨-, cs', hcs', hchars, -⟩ c hc
    obtain rfl := utf8_injective hcs'
    obtain ⟨c', hc', rfl⟩ := List.mem_map.1 hc
    exact hchars c' hc'
  · intro hplain
    refine ⟨Nat.lt_succ_of_le hlength, cs, rfl, fun c hc ↦ hplain _ (List.mem_map_of_mem hc), ?_⟩
    by_contra hnone
    push Not at hnone
    refine hstrip (strip_eq_nil fun c hc ↦ ?_)
    obtain ⟨c', hc', rfl⟩ := List.mem_map.1 hc
    rw [hnone c' hc']
    decide

/-! ### The JSON of an action -/

/-- Members under names of ASCII. -/
def named (fields : List (String × Value)) : List (List UInt8 × Value) :=
  fields.map fun field ↦ (ascii field.1.toList, field.2)

namespace GatewayAction

/-- The fields of its JSON. -/
def jsonFields : GatewayAction → List (String × Value)
  | noop => [("action", .string (ascii "noop".toList))]
  | complete id => [("action", .string (ascii "complete".toList)),
      ("id", .number (decimalText id.natAbs))]
  | delete id => [("action", .string (ascii "delete".toList)),
      ("id", .number (decimalText id.natAbs))]
  | add title delay repeats => [("action", .string (ascii "add".toList)),
      ("title", .string ((encodeUtf8 title).getD [])),
      ("delay_seconds", .number (decimalText delay.natAbs)),
      ("repeat_seconds", .number (decimalText repeats.natAbs))]

end GatewayAction

/-- An entry of a `dict` and a member of an object. -/
def SpelledAs (entry : PyStr × PyValue) (member : List UInt8 × Value) : Prop :=
  encodeUtf8 entry.1 = some member.1 ∧ spell entry.2 = some member.2

/-- Entries are spelled one by one. -/
theorem spellEntries_iff {entries : List (PyStr × PyValue)} {members : List (List UInt8 × Value)} :
    spellEntries entries = some members ↔ List.Forall₂ SpelledAs entries members := by
  induction entries generalizing members with
  | nil =>
    rw [spellEntries, List.forall₂_nil_left_iff, Option.some.injEq]
    exact eq_comm
  | cons entry entries ih =>
    obtain ⟨key, v⟩ := entry
    constructor
    · intro h
      obtain ⟨name, w, members', hname, hw, hrest, rfl⟩ := spellEntries_cons h
      exact .cons ⟨hname, hw⟩ (ih.1 hrest)
    · intro h
      obtain ⟨member, members', ⟨hname, hw⟩, hrest, rfl⟩ := List.forall₂_cons_left_iff.1 h
      rw [spellEntries, hname, hw, ih.2 hrest]
      rfl

/-- A number that is not negative is spelled in digits. -/
theorem spell_natCast {n : ℤ} (h : 0 ≤ n) :
    spell (.int n) = some (.number (decimalText n.natAbs)) := by
  rw [spell, if_neg (not_lt.2 h)]
  rfl

/-- The ids of a request are positive and have 32 bits. -/
theorem one_le_of_mem_ids {items : List ChatItem} {id : ℤ} (h : id ∈ items.map ChatItem.id) :
    1 ≤ id ∧ id ≤ 0xFFFFFFFF := by
  obtain ⟨item, -, rfl⟩ := List.mem_map.1 h
  exact item.id_range

/-- What is written in an action besides its title and its numbers. -/
def actionWords : List String :=
  ["action", "id", "title", "delay_seconds", "repeat_seconds", "noop", "complete", "delete", "add"]

/-- The words of an action are ASCII. -/
theorem encodeUtf8_word : ∀ word ∈ actionWords,
    encodeUtf8 (py word) = some (ascii word.toList) := by
  decide +kernel

/-- A field is spelled by its name and its value. -/
theorem spelledAs_field {name : String} {v : PyValue} {w : Value} (hname : name ∈ actionWords)
    (h : spell v = some w) : SpelledAs (py name, v) (ascii name.toList, w) :=
  ⟨encodeUtf8_word name hname, h⟩

/-- A word is spelled as it is. -/
theorem spell_word {word : String} (h : word ∈ actionWords) :
    spell (.str (py word)) = some (.string (ascii word.toList)) := by
  rw [spell, encodeUtf8_word word h]
  rfl

/-- The fields of an action are spelled as its JSON. -/
theorem GatewayAction.spelled {a : GatewayAction} {items : List ChatItem} (h : a.Allowed items) :
    List.Forall₂ SpelledAs (a.fields.map fun field ↦ (py field.1, field.2))
      (named a.jsonFields) := by
  have hid : ∀ {id : ℤ}, id ∈ items.map ChatItem.id → 0 ≤ id := fun hmem ↦ by
    have hrange := one_le_of_mem_ids hmem
    omega
  have hkind : ∀ {kind : String}, kind ∈ actionWords →
      SpelledAs (py "action", .str (py kind))
        (ascii "action".toList, .string (ascii kind.toList)) :=
    fun hword ↦ spelledAs_field (by simp [actionWords]) (spell_word hword)
  cases a with
  | noop => exact .cons (hkind (by simp [actionWords])) .nil
  | complete id =>
    exact .cons (hkind (by simp [actionWords]))
      (.cons (spelledAs_field (by simp [actionWords]) (spell_natCast (hid h))) .nil)
  | delete id =>
    exact .cons (hkind (by simp [actionWords]))
      (.cons (spelledAs_field (by simp [actionWords]) (spell_natCast (hid h))) .nil)
  | add title delay repeats =>
    obtain ⟨htitle, -, hdelay, hrepeats⟩ := h
    obtain ⟨-, -, bytes, hbytes, -⟩ := validText_iff.1 htitle
    have htext : spell (.str title) = some (.string ((encodeUtf8 title).getD [])) := by
      rw [spell, hbytes]
      rfl
    exact .cons (hkind (by simp [actionWords]))
      (.cons (spelledAs_field (by simp [actionWords]) htext)
        (.cons (spelledAs_field (by simp [actionWords]) (spell_natCast hdelay.1))
          (.cons (spelledAs_field (by simp [actionWords]) (spell_natCast (by omega))) .nil)))

/-- **A valid action is spelled as its JSON**, up to the order. -/
theorem GatewayAction.IsDict.exists_members {a : GatewayAction} {items : List ChatItem}
    {entries : List (PyStr × PyValue)} (h : a.IsDict entries) (hallowed : a.Allowed items) :
    ∃ members, spellEntries entries = some members ∧ members.Perm (named a.jsonFields) := by
  obtain ⟨members, hspelled, hperm⟩ := List.perm_comp_forall₂ h (spelled hallowed)
  exact ⟨members, spellEntries_iff.2 hspelled, hperm⟩

/-! ### The text passes the first check -/

open Rfc8259 (membersTexts membersDepth)

/-- The texts of an object, member by member. -/
theorem membersTexts_eq (members : List (List UInt8 × Value)) :
    membersTexts members = members.flatMap fun member ↦ member.1 :: member.2.texts := by
  induction members with
  | nil => rfl
  | cons member members ih =>
    obtain ⟨name, v⟩ := member
    rw [membersTexts, ih, List.flatMap_cons]

/-- Scalars are not nested. -/
theorem membersDepth_eq_zero {members : List (List UInt8 × Value)}
    (h : ∀ member ∈ members, member.2.depth = 0) : membersDepth members = 0 := by
  induction members with
  | nil => rfl
  | cons member members ih =>
    obtain ⟨name, v⟩ := member
    rw [membersDepth, ih fun m hm ↦ h m (List.mem_cons_of_mem _ hm), h _ List.mem_cons_self]
    rfl

/-- The room of an object, member by member. -/
theorem roomMembers_eq (members : List (List UInt8 × Value)) :
    roomMembers members =
      (members.map fun member ↦ 6 * member.1.length + 2 + 1 + room member.2 + 1).sum := by
  induction members with
  | nil => rfl
  | cons member members ih =>
    obtain ⟨name, v⟩ := member
    rw [roomMembers, ih, List.map_cons, List.sum_cons]

/-- A flat object without a U+0000 that is not too long is safe. -/
theorem smartTodoJsonSafe_of_isText {members : List (List UInt8 × Value)} {t : List UInt8}
    (h : IsText (.object members) t) (hflat : ∀ member ∈ members, member.2.depth = 0)
    (hnul : ∀ text ∈ membersTexts members, 0 ∉ text) (hlength : t.length ≤ 8192) :
    smartTodoJsonSafe t = true := by
  obtain ⟨strings, hderives, hfree⟩ := Rfc8259.derives_of_isText h hnul
  have hdepth : (Value.object members).depth = 1 := by
    rw [Value.depth, membersDepth_eq_zero hflat]
  have hne : t.length ≠ 0 := by
    obtain ⟨body, rfl, -⟩ := h
    exact Nat.succ_ne_zero _
  have htext : Rfc8259.DerivesText 1 strings t :=
    ⟨[], t, [], Rfc8259.Ws.nil, hdepth ▸ hderives, Rfc8259.Ws.nil, (List.append_nil t).symm⟩
  rw [smartTodoJsonSafe, if_neg (by omega), nulScanner_jsonScan.scan_text htext (by decide),
    nulFree_iff.2 hfree]
  rfl

/-- An id has ten digits at most. -/
theorem length_decimalText_natAbs {n : ℤ} (hn : 0 ≤ n) (h : n ≤ 0xFFFFFFFF) :
    (decimalText n.natAbs).length ≤ 10 :=
  Rfc8259.length_decimalText_le (by decide) (by omega)

namespace GatewayAction

variable {a : GatewayAction} {items : List ChatItem}

/-- An action is not nested. -/
theorem flat (a : GatewayAction) : ∀ member ∈ named a.jsonFields, member.2.depth = 0 := by
  cases a <;> simp [jsonFields, named, Value.depth]

/-- **An action that is allowed** has no zero byte. -/
theorem noNul (h : a.Allowed items) : ∀ text ∈ membersTexts (named a.jsonFields), 0 ∉ text := by
  have hwords : ∀ word ∈ actionWords, 0 ∉ ascii word.toList := by decide +kernel
  cases a with
  | noop => decide +kernel
  | complete id =>
    simp only [named, jsonFields, List.map_cons, List.map_nil, membersTexts, Value.texts]
    decide +kernel
  | delete id =>
    simp only [named, jsonFields, List.map_cons, List.map_nil, membersTexts, Value.texts]
    decide +kernel
  | add title delay repeats =>
    obtain ⟨hnul, -, bytes, hbytes, -⟩ := validText_iff.1 h.1
    have htitle : 0 ∉ (encodeUtf8 title).getD [] := by
      rw [hbytes]
      exact zero_notMem_encodeUtf8 hbytes hnul
    simp only [named, jsonFields, List.map_cons, List.map_nil, membersTexts, Value.texts,
      List.cons_append, List.nil_append, List.forall_mem_cons]
    exact ⟨hwords _ (by simp [actionWords]), hwords _ (by simp [actionWords]),
      hwords _ (by simp [actionWords]), htitle, hwords _ (by simp [actionWords]),
      hwords _ (by simp [actionWords]), by simp⟩

/-- It fits the buffer of the firmware. -/
theorem room_le (h : a.Allowed items) : roomMembers (named a.jsonFields) ≤ 2048 := by
  have hlength : ∀ word ∈ actionWords, (ascii word.toList).length ≤ 14 := by decide +kernel
  have hkind := hlength "action" (by simp [actionWords])
  have hid := hlength "id" (by simp [actionWords])
  cases a with
  | noop => decide +kernel
  | complete id =>
    have hrange := one_le_of_mem_ids h
    have hdigits := length_decimalText_natAbs (by omega) hrange.2
    have hword := hlength "complete" (by simp [actionWords])
    simp only [named, jsonFields, List.map_cons, List.map_nil, roomMembers, room]
    omega
  | delete id =>
    have hrange := one_le_of_mem_ids h
    have hdigits := length_decimalText_natAbs (by omega) hrange.2
    have hword := hlength "delete" (by simp [actionWords])
    simp only [named, jsonFields, List.map_cons, List.map_nil, roomMembers, room]
    omega
  | add title delay repeats =>
    obtain ⟨htitle, -, hdelay, hrepeats⟩ := h
    obtain ⟨-, -, bytes, hbytes, hbound⟩ := validText_iff.1 htitle
    have hdigits := length_decimalText_natAbs hdelay.1 (by omega)
    have hdigits' := length_decimalText_natAbs (n := repeats) (by omega) (by omega)
    have hword := hlength "add" (by simp [actionWords])
    have htitle := hlength "title" (by simp [actionWords])
    have hdelay := hlength "delay_seconds" (by simp [actionWords])
    have hrepeat := hlength "repeat_seconds" (by simp [actionWords])
    simp only [named, jsonFields, List.map_cons, List.map_nil, roomMembers, room, hbytes,
      Option.getD_some]
    omega

end GatewayAction

/-! ### The device reads it -/

/-- The order of the members does not matter. -/
theorem get_perm {l l' : List (CString × CJson)} (h : l.Perm l') (hnodup : (l.map Prod.fst).Nodup)
    (key : CString) : CJson.get key l = CJson.get key l' := by
  induction h with
  | nil => rfl
  | cons entry _ ih =>
    obtain ⟨name, v⟩ := entry
    rw [List.map_cons, List.nodup_cons] at hnodup
    rw [CJson.get, CJson.get, ih hnodup.2]
  | swap entry entry' l =>
    obtain ⟨name, v⟩ := entry
    obtain ⟨name', v'⟩ := entry'
    have hne : name' ≠ name := by
      rw [List.map_cons, List.map_cons, List.nodup_cons, List.mem_cons, not_or] at hnodup
      exact hnodup.1.1
    rw [CJson.get, CJson.get, CJson.get, CJson.get]
    by_cases hname : name = key
    · have hname' : name' ≠ key := fun hname' ↦ hne (hname'.trans hname.symm)
      rw [if_neg hname', if_pos hname, if_pos hname]
    · rw [if_neg hname, if_neg hname]
  | trans h₁ _ ih₁ ih₂ => exact (ih₁ hnodup).trans (ih₂ ((h₁.map Prod.fst).nodup hnodup))

/-- The order of the members does not matter. -/
theorem candidateOf_perm {l l' : List (CString × CJson)} (h : l.Perm l')
    (hnodup : (l.map Prod.fst).Nodup) : candidateOf l = candidateOf l' := by
  have hnodup' : (l'.map Prod.fst).Nodup := (h.map Prod.fst).nodup hnodup
  have hkeys : (∀ child ∈ l, child.1 ∈ actionKeys) ↔ ∀ child ∈ l', child.1 ∈ actionKeys :=
    forall_congr' fun child ↦ by rw [h.mem_iff]
  unfold candidateOf actionKindOf uintField idsField titleField
  simp only [get_perm h hnodup, hkeys, hnodup, hnodup']

/-- cJSON reads an object member by member. -/
theorem ofMembers_eq (toDouble : List UInt8 → Option ℚ) (members : List (List UInt8 × Value)) :
    CJson.ofMembers toDouble members =
      members.map fun member ↦ (CString.ofBytes member.1, CJson.ofValue toDouble member.2) := by
  induction members with
  | nil => rfl
  | cons member members ih =>
    obtain ⟨name, v⟩ := member
    rw [CJson.ofMembers, ih, List.map_cons]

/-- A whole number within its bound. -/
theorem wholeNumber_natCast (max : UInt32) (n : ℕ) :
    wholeNumber max (.number (some (n : ℚ))) =
      if n ≤ max.toNat then some (UInt32.ofNat n) else none := by
  rw [wholeNumber, Int.floor_natCast, Int.toNat_natCast, Int.cast_natCast]
  by_cases h : n ≤ max.toNat
  · have hle : (n : ℚ) ≤ max.toNat := Nat.cast_le.2 h
    rw [if_pos h, if_neg]
    rintro (hneg | hgt | hne)
    · exact absurd hneg (not_lt.2 (Nat.cast_nonneg n))
    · exact absurd hgt (not_lt.2 hle)
    · exact hne rfl
  · rw [if_neg h, if_pos (.inr (.inl (Nat.cast_lt.2 (Nat.lt_of_not_le h))))]

/-- A candidate without an array of ids. -/
theorem candidateOf_of_fields {root : List (CString × CJson)} {kind : TodoActionKind}
    {id delaySeconds repeatSeconds : UInt32} {title : CString}
    (hkeys : ∀ child ∈ root, child.1 ∈ actionKeys) (hnodup : (root.map Prod.fst).Nodup)
    (hkind : actionKindOf root = some kind)
    (hid : uintField root (keyName "id") (uint32Max - 1) = some id)
    (hids : idsField root = some [])
    (hdelay : uintField root (keyName "delay_seconds") todoMaxInterval = some delaySeconds)
    (hrepeat : uintField root (keyName "repeat_seconds") todoMaxInterval = some repeatSeconds)
    (hshort : ¬ (repeatSeconds ≠ 0 ∧ repeatSeconds < 60)) (htitle : titleField root = some title) :
    candidateOf root =
      if candidateValid ⟨kind, id, 0, .replicate _ 0, title, delaySeconds, repeatSeconds⟩ then
        some ⟨kind, id, 0, .replicate _ 0, title, delaySeconds, repeatSeconds⟩
      else none := by
  have hzeros : (Vector.ofFn fun i : Fin todoCapacity ↦ ([] : List UInt32).getD i.val 0) =
      .replicate todoCapacity 0 := by
    decide
  unfold candidateOf
  rw [if_neg (not_or.2 ⟨not_not.2 hkeys, not_not.2 hnodup⟩), hkind, hid, hids, hdelay, hrepeat,
    htitle]
  simp only [Option.bind_eq_bind, Option.bind_some, if_neg hshort, hzeros, List.length_nil]
  rfl

namespace GatewayAction

/-- The action on the device. -/
def todo : GatewayAction → TodoAction
  | noop => ⟨.noop, 0, 0, .replicate _ 0, .empty, 0, 0⟩
  | complete id => ⟨.complete, UInt32.ofNat id.toNat, 0, .replicate _ 0, .empty, 0, 0⟩
  | delete id => ⟨.delete, UInt32.ofNat id.toNat, 0, .replicate _ 0, .empty, 0, 0⟩
  | add title delay repeats => ⟨.add, 0, 0, .replicate _ 0,
      .ofBytes ((encodeUtf8 title).getD []), UInt32.ofNat delay.toNat, UInt32.ofNat repeats.toNat⟩

/-- What only the device asks of an action: an id that is not the largest, a title without control
characters. -/
def FitsFirmware : GatewayAction → Prop
  | noop => True
  | complete id => id ≠ 0xFFFFFFFF
  | delete id => id ≠ 0xFFFFFFFF
  | add title _ _ => ∀ c ∈ title, 0x20 ≤ c.val ∧ c.val ≠ 0x7F

/-- The children of the root, in the order of the fields. -/
def root (toDouble : List UInt8 → Option ℚ) (a : GatewayAction) : List (CString × CJson) :=
  CJson.ofMembers toDouble (named a.jsonFields)

end GatewayAction

/-- The children of an action on one item. -/
def idRoot (word : String) (n : ℕ) : List (CString × CJson) :=
  [(keyName "action", .string (keyName word)), (keyName "id", .number (some (n : ℚ)))]

/-- The firmware takes every id but the largest. -/
theorem uintField_idRoot (word : String) (n : ℕ) :
    uintField (idRoot word n) (keyName "id") (uint32Max - 1) =
      if n ≤ 0xFFFFFFFE then some (UInt32.ofNat n) else none := by
  have hmax : (uint32Max - 1).toNat = 0xFFFFFFFE := by decide
  unfold uintField idRoot
  rw [CJson.get, if_neg (by decide), CJson.get, if_pos rfl]
  exact (wholeNumber_natCast _ n).trans (by rw [hmax])

/-- An action with an id becomes one of the firmware. -/
theorem candidateOf_idRoot {word : String} {kind : TodoActionKind} {n : ℕ}
    (hkind : actionKindOf (idRoot word n) = some kind) (hone : kind = .complete ∨ kind = .delete)
    (hn : 1 ≤ n) (hle : n ≤ 0xFFFFFFFF) :
    candidateOf (idRoot word n) =
      if n ≠ 0xFFFFFFFF then some ⟨kind, UInt32.ofNat n, 0, .replicate _ 0, .empty, 0, 0⟩
      else none := by
  have hkeys : ∀ child ∈ idRoot word n, child.1 ∈ actionKeys := by
    simp only [idRoot, List.forall_mem_cons]
    exact ⟨by decide, by decide, by simp⟩
  have hnodup : ((idRoot word n).map Prod.fst).Nodup :=
    show [keyName "action", keyName "id"].Nodup by decide
  have hother : ∀ key, key ≠ keyName "action" → key ≠ keyName "id" →
      CJson.get key (idRoot word n) = none := by
    intro key haction hid
    rw [idRoot, CJson.get, if_neg (Ne.symm haction), CJson.get, if_neg (Ne.symm hid), CJson.get]
  have hid := uintField_idRoot word n
  by_cases hfits : n = 0xFFFFFFFF
  · -- the id is beyond what the device takes
    rw [if_neg (by omega)] at hid
    rw [if_neg (not_not.2 hfits)]
    unfold candidateOf
    rw [if_neg (not_or.2 ⟨not_not.2 hkeys, not_not.2 hnodup⟩), hkind, hid]
    rfl
  · rw [if_pos (by omega)] at hid
    have hids : idsField (idRoot word n) = some [] := by
      rw [idsField, hother _ (by decide) (by decide)]
    have hdelay : uintField (idRoot word n) (keyName "delay_seconds") todoMaxInterval = some 0 := by
      rw [uintField, hother _ (by decide) (by decide)]
    have hrepeat : uintField (idRoot word n) (keyName "repeat_seconds") todoMaxInterval =
        some 0 := by
      rw [uintField, hother _ (by decide) (by decide)]
    have htitle : titleField (idRoot word n) = some .empty := by
      rw [titleField, hother _ (by decide) (by decide)]
    rw [candidateOf_of_fields hkeys hnodup hkind hid hids hdelay hrepeat (by decide) htitle,
      if_pos hfits]
    refine if_pos ?_
    have hne : UInt32.ofNat n ≠ 0 := by
      intro hzero
      have hnat := congrArg UInt32.toNat hzero
      rw [UInt32.toNat_ofNat', Nat.mod_eq_of_lt (by omega)] at hnat
      exact absurd hnat (by simpa using Nat.one_le_iff_ne_zero.1 hn)
    have hempty : CString.empty.byteAt 0 = 0 := by decide
    unfold candidateValid
    rcases hone with rfl | rfl <;> simp [hne, hempty]

end VibeUsage
