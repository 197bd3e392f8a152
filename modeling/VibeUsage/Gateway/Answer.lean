import VibeUsage.Gateway.Action
import VibeUsage.Lib.InetAton

/-!
# What the device makes of an answer

`_normalized_result` writes the fields it has chosen and `validate_action` reads them again, so both
return the action that the model wrote. What is asked of Python's `json` is that it reads what it
has written of a `dict` that it had read.

* `exists_action` says that both functions return an action of the model, spelled again.
* `candidateOf_root` is what the device reads from that spelling.
* `gatewayAction_fits_iff` is the result: what the gateway returns is read, as the action of the
  model, exactly when it has neither of the two.
The parsers of both sides are parameters; `readsBack_answerJson` and `grammarCjson_standard` give
one of each that meets what is asked of them.
-/

namespace VibeUsage

open Python
open Rfc8259 (Value IsText IsJsonText decimalText)

/-! ### The action of an answer -/

/-- What `json` has read of a text that the gateway looks into, it writes and reads again, also in
part. Of a text with a surrogate this is not said: that and an escape beside it may become one
character. -/
structure ReadsBack (json : JsonModule) : Prop where
  loads_dumps : ∀ {raw text : PyStr} {obj entries : List (PyStr × PyValue)},
    validText raw maxActionBytes = true → strictJson (json.loads raw) = .ok (.dict obj) →
    (entries.map Prod.fst).Nodup → entries ⊆ obj → json.dumps (.dict entries) = some text →
    json.loads text = some (JsonTree.ofValue (.dict entries))

/-- The answer of a model has these fields, and maybe others. -/
def GatewayAction.ReadFrom (json : JsonModule) (raw : PyStr) (a : GatewayAction) : Prop :=
  ∃ obj, strictJson (json.loads raw) = .ok (.dict obj) ∧
    ∀ field ∈ a.fields, PyValue.get (py field.1) obj = some field.2

mutual

/-- **Reading again** what was written changes nothing. -/
theorem strictTree_ofValue : ∀ {v v' : PyValue}, strictTree (JsonTree.ofValue v) = some v' → v' = v
  | .none, _, h | .bool _, _, h | .int _, _, h | .str _, _, h => (Option.some.inj h).symm
  | .float (.finite _), _, h => (Option.some.inj h).symm
  | .float .infinity, _, h | .float .negInfinity, _, h | .float .nan, _, h => nomatch h
  | .list items, _, h => by
    obtain ⟨items', hitems, rfl⟩ := Option.map_eq_some_iff.1 h
    rw [strictItems_ofItems hitems]
  | .dict entries, _, h => by
    obtain ⟨entries', hentries, h'⟩ := Option.bind_eq_some_iff.1 h
    obtain ⟨-, heq⟩ := Option.ite_none_right_eq_some.1 h'
    obtain rfl := Option.some.inj heq
    rw [strictEntries_ofEntries hentries]

/-- Nor does it in an array. -/
theorem strictItems_ofItems : ∀ {vs vs' : List PyValue},
    strictItems (JsonTree.ofItems vs) = some vs' → vs' = vs
  | [], _, h => (Option.some.inj h).symm
  | v :: vs, _, h => by
    obtain ⟨w, hw, h'⟩ := Option.bind_eq_some_iff.1 h
    obtain ⟨ws, hws, heq⟩ := Option.bind_eq_some_iff.1 h'
    obtain rfl := Option.some.inj heq
    rw [strictTree_ofValue hw, strictItems_ofItems hws]

/-- Nor in an object. -/
theorem strictEntries_ofEntries : ∀ {entries entries' : List (PyStr × PyValue)},
    strictEntries (JsonTree.ofEntries entries) = some entries' → entries' = entries
  | [], _, h => (Option.some.inj h).symm
  | (key, v) :: entries, _, h => by
    obtain ⟨w, hw, h'⟩ := Option.bind_eq_some_iff.1 h
    obtain ⟨ws, hws, heq⟩ := Option.bind_eq_some_iff.1 h'
    obtain rfl := Option.some.inj heq
    rw [strictTree_ofValue hw, strictEntries_ofEntries hws]

end

/-- What is read has passed the hooks. -/
theorem strictJson_eq_ok {read : Option JsonTree} {v : PyValue} (h : strictJson read = .ok v) :
    read.bind strictTree = some v := by
  unfold strictJson at h
  split at h
  · rename_i hread
    rw [hread, Except.ok.inj h]
  · cases h

/-- A `dict` that was read has no key twice. -/
theorem nodup_of_strictJson {read : Option JsonTree} {entries : List (PyStr × PyValue)}
    (h : strictJson read = .ok (.dict entries)) : (entries.map Prod.fst).Nodup := by
  obtain ⟨tree, -, htree⟩ := Option.bind_eq_some_iff.1 (strictJson_eq_ok h)
  cases tree with
  | pairs trees =>
    obtain ⟨values, -, h'⟩ := Option.bind_eq_some_iff.1 htree
    obtain ⟨hnodup, heq⟩ := Option.ite_none_right_eq_some.1 h'
    obtain rfl := PyValue.dict.inj (Option.some.inj heq)
    exact hnodup
  | list trees =>
    obtain ⟨values, -, heq⟩ := Option.map_eq_some_iff.1 htree
    cases heq
  | _ => cases htree

section

variable {json : JsonModule} {iterate : List String → List String} {raw text : PyStr}
  {items : List ChatItem}

/-- What `validate_action` returns is the action that it has read. -/
theorem exists_of_validateAction (h : validateAction json raw items = .ok text) :
    ∃ entries, strictJson (json.loads raw) = .ok (.dict entries) ∧
      actionValid entries items = true ∧ text = dumpsCompact json.repr (.dict entries) := by
  unfold validateAction at h
  split at h
  · cases h
  split at h
  · rename_i entries hentries
    split at h
    · rename_i hvalid
      exact ⟨entries, hentries, hvalid, (Except.ok.inj h).symm⟩
    · cases h
  · cases h

/-- A key that is kept has the value that it had. -/
theorem mem_chosen {obj : List (PyStr × PyValue)} {keys : List String} {entry : PyStr × PyValue}
    (h : entry ∈ chosen obj keys) : PyValue.get entry.1 obj = some entry.2 := by
  obtain ⟨key, -, hkey⟩ := List.mem_filterMap.1 h
  obtain ⟨v, hv, rfl⟩ := Option.map_eq_some_iff.1 hkey
  exact hv

/-- The keys of the fields that are chosen are among those that were asked for. -/
theorem keys_chosen_sublist (obj : List (PyStr × PyValue)) (keys : List String) :
    ((chosen obj keys).map Prod.fst).Sublist (keys.map py) := by
  unfold chosen
  induction keys with
  | nil => exact List.Sublist.slnil
  | cons key keys ih =>
    cases hget : PyValue.get (py key) obj with
    | none =>
      rw [List.filterMap_cons, hget]
      exact ih.cons _
    | some v =>
      rw [List.filterMap_cons, hget]
      exact ih.cons_cons _

/-- The keys of a result come once. -/
theorem nodup_resultKeys {kind : PyStr} {keys : List String} (h : resultKeys kind = some keys) :
    (keys.map py).Nodup := by
  unfold resultKeys at h
  split_ifs at h
  · obtain rfl := Option.some.inj h
    decide
  · obtain rfl := Option.some.inj h
    decide
  · obtain rfl := Option.some.inj h
    decide

/-- The text that `_normalized_result` hands to `validate_action`. -/
theorem exists_of_normalizedResult (h : normalizedResult json iterate raw items = .ok text) :
    validText raw maxActionBytes = true ∧
      ∃ obj kind keys text', strictJson (json.loads raw) = .ok (.dict obj) ∧
        resultKeys kind = some keys ∧
        json.dumps (.dict (chosen obj (iterate keys))) = some text' ∧
        validateAction json text' items = .ok text := by
  unfold normalizedResult at h
  split at h
  · cases h
  rename_i hraw
  split at h
  case h_2 => cases h
  rename_i obj hobj
  split at h
  · cases h
  split at h
  case h_2 => cases h
  rename_i kind hkind
  split at h
  · cases h
  rename_i keys hkeys
  split at h
  · cases h
  split at h
  · cases h
  · rename_i text' htext'
    exact ⟨not_not.1 hraw, obj, kind, keys, text', hobj, hkeys, htext', h⟩

/-- **Both return an action of the model**, spelled again. -/
theorem exists_action (hjson : ReadsBack json) (hiterate : ∀ keys, (iterate keys).Perm keys)
    (h : validateAction json raw items = .ok text ∨
      normalizedResult json iterate raw items = .ok text) :
    ∃ (a : GatewayAction) (entries : List (PyStr × PyValue)), a.ReadFrom json raw ∧
      a.Allowed items ∧ a.IsDict entries ∧ text = dumpsCompact json.repr (.dict entries) := by
  rcases h with h | h
  · obtain ⟨entries, hread, hvalid, rfl⟩ := exists_of_validateAction h
    have hnodup := nodup_of_strictJson hread
    obtain ⟨a, hdict, hallowed⟩ := exists_of_actionValid hnodup hvalid
    refine ⟨a, entries, ⟨entries, hread, fun field hfield ↦ ?_⟩, hallowed, hdict, rfl⟩
    exact get_of_mem hnodup (hdict.mem_iff.2 (List.mem_map.2 ⟨field, hfield, rfl⟩))
  · obtain ⟨hraw, obj, kind, keys, text', hobj, hkeys, htext', h'⟩ := exists_of_normalizedResult h
    obtain ⟨entries, hread, hvalid, rfl⟩ := exists_of_validateAction h'
    -- it is the fields that were chosen
    have hchosen : ((chosen obj (iterate keys)).map Prod.fst).Nodup :=
      (keys_chosen_sublist obj _).nodup
        (((hiterate keys).map py).nodup_iff.2 (nodup_resultKeys hkeys))
    have hback := hjson.loads_dumps hraw hobj hchosen
      (fun entry hentry ↦ mem_of_get (mem_chosen hentry)) htext'
    have hentries : entries = chosen obj (iterate keys) := by
      have htree := strictJson_eq_ok hread
      rw [hback, Option.bind_some] at htree
      exact PyValue.dict.inj (strictTree_ofValue htree)
    have hnodup := nodup_of_strictJson hread
    obtain ⟨a, hdict, hallowed⟩ := exists_of_actionValid hnodup hvalid
    refine ⟨a, entries, ⟨obj, hobj, fun field hfield ↦ ?_⟩, hallowed, hdict, rfl⟩
    have hmem : (py field.1, field.2) ∈ entries :=
      hdict.mem_iff.2 (List.mem_map.2 ⟨field, hfield, rfl⟩)
    rw [hentries] at hmem
    exact mem_chosen hmem

end

/-! ### The action on the device -/

section

variable {toDouble : List UInt8 → Option ℚ} {items : List ChatItem}

/-- No name twice. -/
theorem nodup_root (toDouble : List UInt8 → Option ℚ) (a : GatewayAction) :
    ((a.root toDouble).map Prod.fst).Nodup := by
  have hnames : (a.root toDouble).map Prod.fst = a.jsonFields.map fun field ↦ keyName field.1 := by
    rw [GatewayAction.root, ofMembers_eq, named, List.map_map, List.map_map]
    rfl
  rw [hnames]
  cases a with
  | noop => exact show [keyName "action"].Nodup by decide
  | complete id => exact show [keyName "action", keyName "id"].Nodup by decide
  | delete id => exact show [keyName "action", keyName "id"].Nodup by decide
  | add title delay repeats =>
    exact show [keyName "action", keyName "title", keyName "delay_seconds",
      keyName "repeat_seconds"].Nodup by decide

/-- What cJSON makes of a completed item. -/
theorem root_complete (h : ∀ n < 2 ^ 53, toDouble (decimalText n) = some (n : ℚ)) {id : ℤ}
    (hid : 1 ≤ id ∧ id ≤ 0xFFFFFFFF) :
    (GatewayAction.complete id).root toDouble = idRoot "complete" id.natAbs := by
  simp only [GatewayAction.root, GatewayAction.jsonFields, named, List.map_cons, List.map_nil,
    CJson.ofMembers, CJson.ofValue, h id.natAbs (by omega), idRoot, keyName]

/-- What cJSON makes of a deleted item. -/
theorem root_delete (h : ∀ n < 2 ^ 53, toDouble (decimalText n) = some (n : ℚ)) {id : ℤ}
    (hid : 1 ≤ id ∧ id ≤ 0xFFFFFFFF) :
    (GatewayAction.delete id).root toDouble = idRoot "delete" id.natAbs := by
  simp only [GatewayAction.root, GatewayAction.jsonFields, named, List.map_cons, List.map_nil,
    CJson.ofMembers, CJson.ofValue, h id.natAbs (by omega), idRoot, keyName]

/-- The children of a new item. -/
def addRoot (title : CString) (delay repeats : ℕ) : List (CString × CJson) :=
  [(keyName "action", .string (keyName "add")), (keyName "title", .string title),
    (keyName "delay_seconds", .number (some (delay : ℚ))),
    (keyName "repeat_seconds", .number (some (repeats : ℚ)))]

/-- What cJSON makes of a new item. -/
theorem root_add (h : ∀ n < 2 ^ 53, toDouble (decimalText n) = some (n : ℚ)) {title : PyStr}
    {delay repeats : ℤ} (hdelay : 0 ≤ delay ∧ delay ≤ 31622400)
    (hrepeats : repeats = 0 ∨ 60 ≤ repeats ∧ repeats ≤ 31622400) :
    (GatewayAction.add title delay repeats).root toDouble =
      addRoot (.ofBytes ((encodeUtf8 title).getD [])) delay.natAbs repeats.natAbs := by
  simp only [GatewayAction.root, GatewayAction.jsonFields, named, List.map_cons, List.map_nil,
    CJson.ofMembers, CJson.ofValue, h delay.natAbs (by omega), h repeats.natAbs (by omega), addRoot,
    keyName]

/-- A new item becomes one of the firmware. -/
theorem candidateOf_addRoot {title : CString} {delay repeats : ℕ}
    (htitle : title.bytes.length < todoTitleBytes) (hdelay : delay ≤ 31622400)
    (hrepeats : repeats = 0 ∨ 60 ≤ repeats ∧ repeats ≤ 31622400) :
    candidateOf (addRoot title delay repeats) =
      if textValid title todoTitleBytes then
        some ⟨.add, 0, 0, .replicate _ 0, title, UInt32.ofNat delay, UInt32.ofNat repeats⟩
      else none := by
  have hkeys : ∀ child ∈ addRoot title delay repeats, child.1 ∈ actionKeys := by
    simp only [addRoot, List.forall_mem_cons]
    exact ⟨by decide, by decide, by decide, by decide, by simp⟩
  have hnames : (addRoot title delay repeats).map Prod.fst =
      [keyName "action", keyName "title", keyName "delay_seconds", keyName "repeat_seconds"] := rfl
  have hnodup : ((addRoot title delay repeats).map Prod.fst).Nodup := hnames ▸ by decide
  have hmax : todoMaxInterval.toNat = 31622400 := by decide
  -- The fields that an `add` does not have take their defaults.
  have hnone : ∀ key, key ∉ (addRoot title delay repeats).map Prod.fst →
      CJson.get key (addRoot title delay repeats) = none := by
    intro key hkey
    simp only [addRoot, List.map_cons, List.map_nil, List.mem_cons, List.not_mem_nil, or_false,
      not_or] at hkey
    obtain ⟨haction, htitle, hdelay, hrepeat⟩ := hkey
    rw [addRoot, CJson.get, if_neg (Ne.symm haction), CJson.get, if_neg (Ne.symm htitle),
      CJson.get, if_neg (Ne.symm hdelay), CJson.get, if_neg (Ne.symm hrepeat), CJson.get]
  have hgetTitle : CJson.get (keyName "title") (addRoot title delay repeats) =
      some (.string title) := by
    rw [addRoot, CJson.get, if_neg (by decide), CJson.get, if_pos rfl]
  have hgetDelay : CJson.get (keyName "delay_seconds") (addRoot title delay repeats) =
      some (.number (some (delay : ℚ))) := by
    rw [addRoot, CJson.get, if_neg (by decide), CJson.get, if_neg (by decide), CJson.get,
      if_pos rfl]
  have hgetRepeat : CJson.get (keyName "repeat_seconds") (addRoot title delay repeats) =
      some (.number (some (repeats : ℚ))) := by
    rw [addRoot, CJson.get, if_neg (by decide), CJson.get, if_neg (by decide), CJson.get,
      if_neg (by decide), CJson.get, if_pos rfl]
  have hkind : actionKindOf (addRoot title delay repeats) = some .add := by
    rw [actionKindOf, addRoot, CJson.get, if_pos rfl]
    rfl
  have hid : uintField (addRoot title delay repeats) (keyName "id") (uint32Max - 1) = some 0 := by
    rw [uintField, hnone (keyName "id") (hnames ▸ by decide)]
  have hids : idsField (addRoot title delay repeats) = some [] := by
    rw [idsField, hnone (keyName "ids") (hnames ▸ by decide)]
  have hdelay' : uintField (addRoot title delay repeats) (keyName "delay_seconds")
      todoMaxInterval = some (UInt32.ofNat delay) := by
    rw [uintField, hgetDelay]
    exact (wholeNumber_natCast _ delay).trans (if_pos (hmax ▸ hdelay))
  have hrepeat' : uintField (addRoot title delay repeats) (keyName "repeat_seconds")
      todoMaxInterval = some (UInt32.ofNat repeats) := by
    rw [uintField, hgetRepeat]
    exact (wholeNumber_natCast _ repeats).trans (if_pos (by omega))
  have htitle' : titleField (addRoot title delay repeats) = some title := by
    rw [titleField, hgetTitle]
    exact if_neg (not_le.2 htitle)
  -- A repetition is off or at least a minute.
  have hshort : ¬(UInt32.ofNat repeats ≠ 0 ∧ UInt32.ofNat repeats < 60) := by
    rintro ⟨hne, hlt⟩
    have hlt' : (UInt32.ofNat repeats).toNat < 60 := hlt
    rw [UInt32.toNat_ofNat', Nat.mod_eq_of_lt (by omega)] at hlt'
    obtain rfl : repeats = 0 := by omega
    exact hne rfl
  rw [candidateOf_of_fields hkeys hnodup hkind hid hids hdelay' hrepeat' hshort htitle']
  simp [candidateValid]

/-- **The device reads what the gateway returns**, or refuses it, by the title or the id. -/
theorem candidateOf_root (h : ∀ n < 2 ^ 53, toDouble (decimalText n) = some (n : ℚ))
    {a : GatewayAction} (hallowed : a.Allowed items) :
    (a.FitsFirmware → candidateOf (a.root toDouble) = some a.todo) ∧
      (¬a.FitsFirmware → candidateOf (a.root toDouble) = none) := by
  cases a with
  | noop =>
    refine ⟨fun _ ↦ ?_, fun hnot ↦ absurd trivial hnot⟩
    show candidateOf [(keyName "action", .string (keyName "noop"))] = _
    decide +kernel
  | complete id =>
    have hid := one_le_of_mem_ids hallowed
    have hcast : id.toNat = id.natAbs := by omega
    have hfits : id ≠ 0xFFFFFFFF ↔ id.natAbs ≠ 0xFFFFFFFF := by omega
    have hkind : actionKindOf (idRoot "complete" id.natAbs) = some .complete := rfl
    rw [root_complete h hid, candidateOf_idRoot hkind (Or.inl rfl) (by omega) (by omega),
      GatewayAction.todo, hcast]
    exact ⟨fun hne ↦ if_pos (hfits.1 hne), fun heq ↦ if_neg (mt hfits.2 heq)⟩
  | delete id =>
    have hid := one_le_of_mem_ids hallowed
    have hcast : id.toNat = id.natAbs := by omega
    have hfits : id ≠ 0xFFFFFFFF ↔ id.natAbs ≠ 0xFFFFFFFF := by omega
    have hkind : actionKindOf (idRoot "delete" id.natAbs) = some .delete := rfl
    rw [root_delete h hid, candidateOf_idRoot hkind (Or.inr rfl) (by omega) (by omega),
      GatewayAction.todo, hcast]
    exact ⟨fun hne ↦ if_pos (hfits.1 hne), fun heq ↦ if_neg (mt hfits.2 heq)⟩
  | add title delay repeats =>
    obtain ⟨htitle, -, hdelay, hrepeats⟩ := hallowed
    obtain ⟨hnul, -, bytes, hbytes, hlength⟩ := validText_iff.1 htitle
    have hvalid := textValid_title_iff htitle hbytes
    have hcast : delay.toNat = delay.natAbs := by omega
    have hcast' : repeats.toNat = repeats.natAbs := by omega
    have hfits : (CString.ofBytes bytes).bytes.length < todoTitleBytes := by
      rw [CString.ofBytes_bytes_of_noNul (zero_notMem_encodeUtf8 hbytes hnul)]
      exact Nat.lt_succ_of_le hlength
    rw [root_add h hdelay hrepeats, GatewayAction.todo, hbytes, Option.getD_some, hcast, hcast',
      candidateOf_addRoot hfits (by omega) (by omega)]
    exact ⟨fun hplain ↦ if_pos (hvalid.2 hplain), fun hplain ↦ if_neg (mt hvalid.1 hplain)⟩

end

/-! ### The whole way -/

/-- A safe text has no zero octet. -/
theorem zero_notMem_of_jsonScan {quoted escaped : Bool} {depth : ℕ} {t : List UInt8}
    (h : jsonScan quoted escaped depth t = true) : 0 ∉ t := by
  induction t generalizing quoted escaped depth with
  | nil => exact List.not_mem_nil
  | cons c rest ih =>
    unfold jsonScan at h
    split_ifs at h with hzero
    all_goals
      rw [List.mem_cons, not_or]
      exact ⟨Ne.symm hzero, ih h⟩

section

variable {lib : Cjson} {items : List ChatItem}

/-- An action that is spelled again is read by the device, or refused. -/
theorem parse_spelled (repr : PyFloat → PyStr) (hlib : lib.Standard) {a : GatewayAction}
    {entries : List (PyStr × PyValue)} (hdict : a.IsDict entries) (hallowed : a.Allowed items) :
    ∃ bytes, encodeUtf8 (dumpsCompact repr (.dict entries)) = some bytes ∧
      ∀ before, (a.FitsFirmware →
          smartTodoParseAction lib (.ofBytes bytes) before = (none, a.todo)) ∧
        (¬a.FitsFirmware →
          smartTodoParseAction lib (.ofBytes bytes) before = (some .invalidResponse, before)) := by
  obtain ⟨members, hspelled, hperm⟩ := hdict.exists_members hallowed
  have hspell : spell (.dict entries) = some (.object members) := by
    rw [spell, hspelled]
    rfl
  obtain ⟨bytes, hbytes, htext, hlength⟩ := isText_dumpsCompact repr _ _ hspell
  refine ⟨bytes, hbytes, fun before ↦ ?_⟩
  -- the text is short, flat and free of U+0000
  have hflat : ∀ member ∈ members, member.2.depth = 0 := fun member hmember ↦
    a.flat member (hperm.mem_iff.1 hmember)
  have hnul : ∀ text ∈ Rfc8259.membersTexts members, 0 ∉ text := by
    intro text hmem
    rw [membersTexts_eq, (hperm.flatMap_right _).mem_iff, ← membersTexts_eq] at hmem
    exact GatewayAction.noNul hallowed text hmem
  have hroom : roomMembers members ≤ 2048 := by
    rw [roomMembers_eq, (hperm.map _).sum_eq, ← roomMembers_eq]
    exact GatewayAction.room_le hallowed
  have hsafe : smartTodoJsonSafe bytes = true := by
    refine smartTodoJsonSafe_of_isText htext hflat hnul ?_
    rw [room] at hlength
    omega
  have hzero : 0 ∉ bytes := by
    unfold smartTodoJsonSafe at hsafe
    split at hsafe
    · cases hsafe
    · exact zero_notMem_of_jsonScan hsafe
  have hself : (CString.ofBytes bytes).bytes = bytes := CString.ofBytes_bytes_of_noNul hzero
  have hdepth : (Value.object members).depth ≤ cjsonNestingLimit := by
    rw [Value.depth, membersDepth_eq_zero hflat]
    decide
  have hparse : lib.parse (.ofBytes bytes) =
      some (.object (CJson.ofMembers lib.toDouble members)) := by
    have hjson : IsJsonText (.object members) (CString.ofBytes bytes).bytes :=
      ⟨[], bytes, [], Rfc8259.Ws.nil, htext, Rfc8259.Ws.nil, by rw [hself]; simp⟩
    rw [hlib.parse_of_isJsonText hjson hdepth, CJson.ofValue]
  have hroot : (CJson.ofMembers lib.toDouble members).Perm (a.root lib.toDouble) := by
    rw [GatewayAction.root, ofMembers_eq, ofMembers_eq]
    exact hperm.map _
  have hnodup := nodup_root lib.toDouble a
  have hcandidate : candidateOf (CJson.ofMembers lib.toDouble members) =
      candidateOf (a.root lib.toDouble) :=
    candidateOf_perm hroot ((hroot.map Prod.fst).nodup_iff.2 hnodup)
  obtain ⟨hfits, hrefused⟩ := candidateOf_root hlib.toDouble_decimalText hallowed
  unfold smartTodoParseAction
  rw [hself, if_neg (not_not.2 hsafe), hparse]
  dsimp only
  rw [hcandidate]
  refine ⟨fun h ↦ ?_, fun h ↦ ?_⟩
  · rw [hfits h]
  · rw [hrefused h]

end

/-- **What the gateway returns the device reads**, as the action of the model, exactly when that has
neither a control character in its title nor the largest id. -/
theorem gatewayAction_fits_iff {json : JsonModule} {lib : Cjson} (hjson : ReadsBack json)
    (hlib : lib.Standard) {iterate : List String → List String}
    (hiterate : ∀ keys, (iterate keys).Perm keys) {raw text : PyStr} {items : List ChatItem}
    (h : validateAction json raw items = .ok text ∨
      normalizedResult json iterate raw items = .ok text) :
    ∃ a : GatewayAction, a.ReadFrom json raw ∧ a.Allowed items ∧
      ∃ bytes, encodeUtf8 text = some bytes ∧ ∀ before,
        (smartTodoParseAction lib (.ofBytes bytes) before = (none, a.todo) ↔ a.FitsFirmware) := by
  obtain ⟨a, entries, hread, hallowed, hdict, rfl⟩ := exists_action hjson hiterate h
  obtain ⟨bytes, hbytes, hparse⟩ := parse_spelled json.repr hlib hdict hallowed
  refine ⟨a, hread, hallowed, bytes, hbytes, fun before ↦ ⟨fun hok ↦ ?_, (hparse before).1⟩⟩
  by_contra hnot
  rw [(hparse before).2 hnot] at hok
  cases hok

/-! ### A title with a control character -/

open scoped Classical in
/-- cJSON by the grammar of JSON, with whole numbers only. -/
noncomputable def grammarCjson : Cjson where
  parse text :=
    if h : ∃ v, IsJsonText v text.bytes ∧ v.depth ≤ cjsonNestingLimit then
      some (CJson.ofValue (fun digits ↦ some (digitsValue digits : ℚ)) h.choose)
    else none
  toDouble digits := some (digitsValue digits : ℚ)

/-- **The cJSON of the sample** reads standard JSON. -/
theorem grammarCjson_standard : grammarCjson.Standard where
  parse_of_isJsonText := by
    intro v text htext hdepth
    have hex : ∃ v, IsJsonText v text.bytes ∧ v.depth ≤ cjsonNestingLimit := ⟨v, htext, hdepth⟩
    have hv : hex.choose = v := Rfc8259.isJsonText_unique hex.choose_spec.1 htext
    refine (dif_pos hex).trans ?_
    rw [hv]
    rfl
  toDouble_decimalText n _ := by
    show some ((digitsValue (decimalText n) : ℕ) : ℚ) = _
    rw [Inet.digitsValue_decimalText]

/-- A new item, as `json.dumps` writes it with these separators. -/
def addText (comma colon title : PyStr) : PyStr :=
  py "\x7b\"action\"" ++ colon ++ py "\"add\"" ++ comma ++ py "\"title\"" ++ colon ++ py "\"" ++
    title ++ py "\"" ++ comma ++ py "\"delay_seconds\"" ++ colon ++ py "60" ++ comma ++
    py "\"repeat_seconds\"" ++ colon ++ py "0\x7d"

/-- The text that is returned for a new item. -/
def addAnswer (title : PyStr) : PyStr := addText (py ",") (py ":") title

/-- The answer of a model with a new item, by the schema of its output. -/
def modelAnswer (title : PyStr) : PyStr :=
  py "\x7b\"action\":\"add\",\"title\":\"" ++ title ++
    py "\",\"id\":null,\"delay_seconds\":60,\"repeat_seconds\":0\x7d"

/-- The `dict` of a new item. -/
def addEntries (title : PyStr) : List (PyStr × PyValue) :=
  (GatewayAction.add title 60 0).fields.map fun field ↦ (py field.1, field.2)

/-- The `dict` of the answer. -/
def modelEntries (title : PyStr) : List (PyStr × PyValue) :=
  [(py "action", .str (py "add")), (py "title", .str title), (py "id", .none),
    (py "delay_seconds", .int 60), (py "repeat_seconds", .int 0)]

/-- The texts of one answer and what they say. In them the title is `spelled`; the first is what
`json.dumps` writes of the second without the id. -/
def answerTexts (spelled title : PyStr) : List (PyStr × List (PyStr × PyValue)) :=
  [(addText (py ", ") (py ": ") spelled, addEntries title),
    (modelAnswer spelled, modelEntries title), (addAnswer spelled, addEntries title)]

open scoped Classical in
/-- Python's `json`, for these texts. -/
noncomputable def answerJson (spelled title : PyStr) : JsonModule where
  loads raw := ((answerTexts spelled title).lookup raw).map fun entries ↦
    JsonTree.ofValue (.dict entries)
  loadsBytes _ := none
  dumps v := if v = .dict (addEntries title) then some (addText (py ", ") (py ": ") spelled)
    else none
  repr _ := []

/-- The sample reads what it has written, with spaces. -/
theorem loads_addText (spelled title : PyStr) :
    (answerJson spelled title).loads (addText (py ", ") (py ": ") spelled) =
      some (JsonTree.ofValue (.dict (addEntries title))) := by
  show ((answerTexts spelled title).lookup _).map _ = _
  rw [answerTexts, List.lookup_cons_self, Option.map_some]

/-- It reads the answer of the model. -/
theorem loads_modelAnswer {spelled : PyStr} (title : PyStr)
    (h : modelAnswer spelled ≠ addText (py ", ") (py ": ") spelled) :
    (answerJson spelled title).loads (modelAnswer spelled) =
      some (JsonTree.ofValue (.dict (modelEntries title))) := by
  show ((answerTexts spelled title).lookup _).map _ = _
  rw [answerTexts, List.lookup_cons, beq_false_of_ne h, List.lookup_cons_self, Option.map_some]

/-- It reads what it has written, without spaces. -/
theorem loads_addAnswer (spelled title : PyStr)
    (h : addAnswer spelled ≠ addText (py ", ") (py ": ") spelled)
    (h' : addAnswer spelled ≠ modelAnswer spelled) :
    (answerJson spelled title).loads (addAnswer spelled) =
      some (JsonTree.ofValue (.dict (addEntries title))) := by
  show ((answerTexts spelled title).lookup _).map _ = _
  rw [answerTexts, List.lookup_cons, beq_false_of_ne h, List.lookup_cons, beq_false_of_ne h',
    List.lookup_cons_self, Option.map_some]

/-- **The json module of the sample** reads back what it writes. -/
theorem readsBack_answerJson (spelled title : PyStr) : ReadsBack (answerJson spelled title) where
  loads_dumps _ _ _ _ hdumps := by
    obtain ⟨hentries, htext⟩ := Option.ite_none_right_eq_some.1 hdumps
    obtain rfl := PyValue.dict.inj hentries
    obtain rfl := Option.some.inj htext
    exact loads_addText spelled title

/-- What it writes of a new item. -/
theorem dumpsCompact_addEntries (repr : PyFloat → PyStr) (title : PyStr) :
    dumpsCompact repr (.dict (addEntries title)) = addAnswer (title.flatMap escapeChar) := by
  have hfront : py "\x7b" ++ (dumpsStr (py "action") ++ py ":" ++ dumpsStr (py "add") ++ py "," ++
      dumpsStr (py "title") ++ py ":" ++ py "\"") =
        py "\x7b\"action\"" ++ py ":" ++ py "\"add\"" ++ py "," ++ py "\"title\"" ++ py ":" ++
          py "\"" := by
    decide +kernel
  have hback : py "\"" ++ py "," ++ dumpsStr (py "delay_seconds") ++ py ":" ++ intText 60 ++
      py "," ++ dumpsStr (py "repeat_seconds") ++ py ":" ++ intText 0 ++ py "\x7d" =
        py "\"" ++ py "," ++ py "\"delay_seconds\"" ++ py ":" ++ py "60" ++ py "," ++
          py "\"repeat_seconds\"" ++ py ":" ++ py "0\x7d" := by
    decide +kernel
  have htitle : dumpsStr title = py "\"" ++ title.flatMap escapeChar ++ py "\"" := rfl
  have hanswer (spelled : PyStr) : addAnswer spelled =
      py "\x7b\"action\"" ++ py ":" ++ py "\"add\"" ++ py "," ++ py "\"title\"" ++ py ":" ++
        py "\"" ++ spelled ++ (py "\"" ++ py "," ++ py "\"delay_seconds\"" ++ py ":" ++ py "60" ++
          py "," ++ py "\"repeat_seconds\"" ++ py ":" ++ py "0\x7d") := by
    simp only [addAnswer, addText, List.append_assoc]
  rw [hanswer, ← hfront, ← hback]
  simp only [addEntries, GatewayAction.fields, List.map_cons, List.map_nil, dumpsCompact,
    dumpsEntries, List.append_assoc]
  rw [htitle]
  simp only [List.append_assoc]

/-- A text is valid by what can be computed of it. -/
theorem validText_of_all {text : PyStr} {max : ℕ}
    (hnul : (text.all fun c ↦ decide (c.val ≠ 0)) = true) (hstrip : strip text ≠ [])
    (hbytes : ((encodeUtf8 text).any fun bytes ↦ decide (bytes.length ≤ max)) = true) :
    validText text max = true := by
  have hfree : ∀ c ∈ text, c.val ≠ 0 := fun c hc ↦
    of_decide_eq_true (List.all_eq_true.1 hnul c hc)
  rw [validText, decide_eq_true hfree, decide_eq_true hstrip, hbytes]
  rfl

/-- The tree of a new item. -/
theorem ofValue_addEntries (title : PyStr) : JsonTree.ofValue (.dict (addEntries title)) =
    .pairs [(py "action", .str (py "add")), (py "title", .str title),
      (py "delay_seconds", .int 60), (py "repeat_seconds", .int 0)] := by
  simp only [addEntries, GatewayAction.fields, List.map_cons, List.map_nil, JsonTree.ofValue,
    JsonTree.ofEntries]

/-- The tree of the answer. -/
theorem ofValue_modelEntries (title : PyStr) : JsonTree.ofValue (.dict (modelEntries title)) =
    .pairs [(py "action", .str (py "add")), (py "title", .str title), (py "id", .none),
      (py "delay_seconds", .int 60), (py "repeat_seconds", .int 0)] := by
  simp only [modelEntries, JsonTree.ofValue, JsonTree.ofEntries]

section Answer

variable {json : JsonModule} {raw text title : PyStr} {items : List ChatItem}

/-- A new item is returned, as Python spells it without spaces. -/
theorem validateAction_addEntries (items : List ChatItem)
    (hraw : validText raw maxActionBytes = true)
    (hloads : json.loads raw = some (JsonTree.ofValue (.dict (addEntries title))))
    (htitle : validText title 96 = true) (hlength : title.length ≤ 32) :
    validateAction json raw items = .ok (addAnswer (title.flatMap escapeChar)) := by
  have hread : strictJson (json.loads raw) = .ok (.dict (addEntries title)) := by
    rw [hloads, ofValue_addEntries]
    rfl
  have hvalid : actionValid (addEntries title) items = true := by
    have hkeys : hasKeys (addEntries title)
        ["action", "title", "delay_seconds", "repeat_seconds"] = true := by
      rw [hasKeys_iff]
      simp [addEntries, GatewayAction.fields]
    have hget : ∀ field ∈ (GatewayAction.add title 60 0).fields,
        PyValue.get (py field.1) (addEntries title) = some field.2 := by
      intro field hfield
      refine get_of_mem ?_ (List.mem_map.2 ⟨field, hfield, rfl⟩)
      rw [addEntries, List.map_map]
      exact GatewayAction.keys_nodup (.add title 60 0)
    simp only [GatewayAction.fields, List.forall_mem_cons] at hget
    obtain ⟨hkind, hfound, hdelay, hrepeats, -⟩ := hget
    rw [actionValid, hkind]
    dsimp only
    rw [if_neg (by decide), if_neg (by decide), if_pos rfl, hfound, hdelay, hrepeats]
    dsimp only
    rw [hkeys, htitle, decide_eq_true hlength]
    rfl
  unfold validateAction
  rw [if_neg (not_not.2 hraw), hread]
  dsimp only
  rw [if_pos hvalid, dumpsCompact_addEntries]

/-- The answer of a model is written again without the id. -/
theorem normalizedResult_modelEntries (hraw : validText raw maxActionBytes = true)
    (hloads : json.loads raw = some (JsonTree.ofValue (.dict (modelEntries title))))
    (hdumps : json.dumps (.dict (addEntries title)) = some text) :
    normalizedResult json id raw items = validateAction json text items := by
  have hread : strictJson (json.loads raw) = .ok (.dict (modelEntries title)) := by
    rw [hloads, ofValue_modelEntries]
    rfl
  have hkeys : hasKeys (modelEntries title) outputKeys = true := by
    rw [hasKeys_iff]
    simp [modelEntries, outputKeys]
  -- the id is null, and the only field that is left out
  have hothers : ¬((modelEntries title).any fun entry ↦ !entry.2.isNone && !decide (∃ key ∈
      ["action", "title", "delay_seconds", "repeat_seconds"], entry.1 = py key)) = true := by
    simp [modelEntries, PyValue.isNone]
  have hchosen : chosen (modelEntries title) ["action", "title", "delay_seconds",
      "repeat_seconds"] = addEntries title := by
    have hnodup : ((modelEntries title).map Prod.fst).Nodup := show [py "action", py "title",
      py "id", py "delay_seconds", py "repeat_seconds"].Nodup by decide +kernel
    have hget (key : PyStr) (v : PyValue) (hmem : (key, v) ∈ modelEntries title) :
        PyValue.get key (modelEntries title) = some v := get_of_mem hnodup hmem
    simp [chosen, hget (py "action") (.str (py "add")) (by simp [modelEntries]),
      hget (py "title") (.str title) (by simp [modelEntries]),
      hget (py "delay_seconds") (.int 60) (by simp [modelEntries]),
      hget (py "repeat_seconds") (.int 0) (by simp [modelEntries]), addEntries,
      GatewayAction.fields]
  unfold normalizedResult
  rw [if_neg (not_not.2 hraw), hread]
  dsimp only
  rw [if_neg (not_not.2 hkeys), show PyValue.get (py "action") (modelEntries title) =
    some (.str (py "add")) from rfl]
  dsimp only
  rw [show resultKeys (py "add") = some ["action", "title", "delay_seconds", "repeat_seconds"] from
    rfl]
  dsimp only
  rw [if_neg hothers, id, hchosen, hdumps]

end Answer

/-- The answer of a model with the title `milk`, on its way through both functions. -/
theorem normalizedResult_milk :
    normalizedResult (answerJson (py "milk") (py "milk")) id (modelAnswer (py "milk")) [] =
      .ok (addAnswer (py "milk")) := by
  have hraw : validText (modelAnswer (py "milk")) maxActionBytes = true :=
    validText_of_all (by decide +kernel) (by decide +kernel) (by decide +kernel)
  have hwritten : validText (addText (py ", ") (py ": ") (py "milk")) maxActionBytes = true :=
    validText_of_all (by decide +kernel) (by decide +kernel) (by decide +kernel)
  have htitle : validText (py "milk") 96 = true :=
    validText_of_all (by decide +kernel) (by decide +kernel) (by decide +kernel)
  have hne : modelAnswer (py "milk") ≠ addText (py ", ") (py ": ") (py "milk") := by
    decide +kernel
  have hescape : (py "milk").flatMap escapeChar = py "milk" := by decide +kernel
  have hresult := validateAction_addEntries [] hwritten
    (loads_addText (py "milk") (py "milk")) htitle (by decide +kernel)
  rw [hescape] at hresult
  rw [normalizedResult_modelEntries hraw (loads_modelAnswer (py "milk") hne) (if_pos rfl), hresult]

/-- A title without control characters fits. -/
theorem gatewayAction_fits_iff_milk : ∃ a : GatewayAction,
    a.ReadFrom (answerJson (py "milk") (py "milk")) (modelAnswer (py "milk")) ∧ a.Allowed [] ∧
      ∃ bytes, encodeUtf8 (addAnswer (py "milk")) = some bytes ∧ ∀ before,
        (smartTodoParseAction grammarCjson (.ofBytes bytes) before = (none, a.todo) ↔
          a.FitsFirmware) :=
  gatewayAction_fits_iff (readsBack_answerJson _ _) grammarCjson_standard
    (fun keys ↦ List.Perm.refl keys) (Or.inr normalizedResult_milk)

/-- U+0001 in a title passes the gateway and is refused by the device. -/
theorem controlTitle_refused : ∃ (json : JsonModule) (lib : Cjson) (raw text : PyStr)
    (bytes : List UInt8), ReadsBack json ∧ lib.Standard ∧ validateAction json raw [] = .ok text ∧
      encodeUtf8 text = some bytes ∧ ∀ before,
        smartTodoParseAction lib (.ofBytes bytes) before = (some .invalidResponse, before) := by
  have hescape : (py "a\x01b").flatMap escapeChar = py "a\\u0001b" := by decide +kernel
  have htitle : validText (py "a\x01b") 96 = true :=
    validText_of_all (by decide +kernel) (by decide +kernel) (by decide +kernel)
  have hlength : (py "a\x01b").length ≤ 32 := by decide +kernel
  have hallowed : (GatewayAction.add (py "a\x01b") 60 0).Allowed [] :=
    ⟨htitle, hlength, by decide, Or.inl rfl⟩
  obtain ⟨bytes, hbytes, hparse⟩ := parse_spelled (fun _ ↦ []) grammarCjson_standard
    (List.Perm.refl (addEntries (py "a\x01b"))) hallowed
  rw [dumpsCompact_addEntries, hescape] at hbytes
  have hraw : validText (addAnswer (py "a\\u0001b")) maxActionBytes = true :=
    validText_of_all (by decide +kernel) (by decide +kernel) (by decide +kernel)
  have hloads := loads_addAnswer (py "a\\u0001b") (py "a\x01b") (by decide +kernel)
    (by decide +kernel)
  have hreturned := validateAction_addEntries [] hraw hloads htitle hlength
  rw [hescape] at hreturned
  refine ⟨answerJson (py "a\\u0001b") (py "a\x01b"), grammarCjson, addAnswer (py "a\\u0001b"),
    addAnswer (py "a\\u0001b"), bytes, readsBack_answerJson _ _, grammarCjson_standard, hreturned,
    hbytes, fun before ↦ (hparse before).2 fun hfits ↦ ?_⟩
  exact absurd (hfits ⟨1, by decide⟩ (by decide +kernel)).1 (by decide)

end VibeUsage
