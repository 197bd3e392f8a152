import VibeUsage.Lib.Python.Json

/-!
# What the gateway reads and returns

`strict_json`, `parse_chat` and the checks of a model's answer, `validate_action` and
`_normalized_result`. The module `json` is a parameter, its hooks are here. A `ChatInput` is what
`parse_chat` lets through, so it carries the bounds of its fields; a `GatewayAction` is one of the
four shapes of a valid action (`exists_of_actionValid`).

A failed check raises `GatewayError` in the source, whichever check it was; here it is an `Except`
with the error, so that the order of the checks can be seen.
-/

namespace VibeUsage

open Python

/-- A `GatewayError`. -/
structure GatewayError where
  code : String
  status : ℕ
  deriving DecidableEq

/-- `MAX_ACTION_BYTES` -/
def maxActionBytes : ℕ := 2048

/-- `MAX_CHAT_BODY` -/
def maxChatBody : ℕ := 16384

/-! ### strict_json -/

mutual

/-- The hooks of `strict_json`: no key twice, no constant. -/
def strictTree : JsonTree → Option PyValue
  | .none => some .none
  | .bool value => some (.bool value)
  | .int value => some (.int value)
  | .float value => some (.float value)
  | .constant _ => none
  | .str text => some (.str text)
  | .list items => (strictItems items).map .list
  | .pairs entries => do
    let values ← strictEntries entries
    if (values.map Prod.fst).Nodup then some (.dict values) else none

def strictItems : List JsonTree → Option (List PyValue)
  | [] => some []
  | t :: ts => do
    let v ← strictTree t
    return v :: (← strictItems ts)

def strictEntries : List (PyStr × JsonTree) → Option (List (PyStr × PyValue))
  | [] => some []
  | (key, t) :: entries => do
    let v ← strictTree t
    return (key, v) :: (← strictEntries entries)

end

def invalidJson : GatewayError := ⟨"invalid_json", 400⟩

/-- `strict_json`, after the reading. -/
def strictJson (read : Option JsonTree) : Except GatewayError PyValue :=
  match read.bind strictTree with
  | some value => .ok value
  | none => .error invalidJson

/-! ### parse_chat -/

/-- `_valid_text` of a `str`. -/
def validText (text : PyStr) (maxBytes : ℕ) : Bool :=
  decide (∀ c ∈ text, c.val ≠ 0) && decide (strip text ≠ []) &&
    (encodeUtf8 text).any fun bytes ↦ decide (bytes.length ≤ maxBytes)

/-- `set(entries) == {...}`. -/
def hasKeys (entries : List (PyStr × PyValue)) (keys : List String) : Bool :=
  decide ((∀ entry ∈ entries, ∃ key ∈ keys, entry.1 = py key) ∧
    ∀ key ∈ keys, ∃ entry ∈ entries, entry.1 = py key)

/-- An item of the request. -/
structure ChatItem where
  id : ℤ
  title : PyStr
  completed : Bool
  id_range : 1 ≤ id ∧ id ≤ 0xFFFFFFFF
  title_valid : validText title 96 = true

/-- The data of a request: what there is to do, and what was said. -/
structure ChatInput where
  items : List ChatItem
  instruction : PyStr
  ids_nodup : (items.map ChatItem.id).Nodup
  length_le : items.length ≤ 12
  instruction_valid : validText instruction 512 = true

/-- The `content` of a message in a role. -/
def messageContent (role : String) : PyValue → Option PyStr
  | .dict message =>
    if ¬ hasKeys message ["role", "content"] then none
    else
      match PyValue.get (py "role") message, PyValue.get (py "content") message with
      | some (.str r), some (.str content) =>
        if r = py role ∧ validText content 8192 then some content else none
      | _, _ => none
  | _ => none

/-- The `content` of the message of the user. -/
def chatContent : PyValue → Option PyStr
  | .dict body =>
    if ¬ hasKeys body ["model", "messages", "stream", "max_tokens"] then none
    else
      match PyValue.get (py "model") body, PyValue.get (py "stream") body,
        PyValue.get (py "max_tokens") body, PyValue.get (py "messages") body with
      | some (.str model), some (.bool false), some (.int maxTokens), some (.list [system, user]) =>
        if model = py "codex-default" ∧ maxTokens = 400 then
          (messageContent "system" system).bind fun _ ↦ messageContent "user" user
        else none
      | _, _, _, _ => none
  | _ => none

def chatItem : PyValue → Option ChatItem
  | .dict item =>
    if ¬ hasKeys item ["id", "title", "completed"] then none
    else
      match PyValue.get (py "id") item, PyValue.get (py "title") item,
        PyValue.get (py "completed") item with
      | some (.int id), some (.str title), some (.bool completed) =>
        if h : (1 ≤ id ∧ id ≤ 0xFFFFFFFF) ∧ validText title 96 = true then
          some ⟨id, title, completed, h.1, h.2⟩
        else none
      | _, _, _ => none
  | _ => none

def chatInput : PyValue → Option ChatInput
  | .dict data =>
    if ¬ hasKeys data ["items", "instruction"] then none
    else
      match PyValue.get (py "instruction") data, PyValue.get (py "items") data with
      | some (.str instruction), some (.list values) =>
        match values.mapM chatItem with
        | some items =>
          if h : (items.map ChatItem.id).Nodup ∧ items.length ≤ 12 ∧
              validText instruction 512 = true then
            some ⟨items, instruction, h.1, h.2.1, h.2.2⟩
          else none
        | none => none
      | _, _ => none
  | _ => none

/-- `parse_chat` -/
def parseChat (json : JsonModule) (raw : List UInt8) : Except GatewayError ChatInput :=
  if raw.length > maxChatBody then .error ⟨"request_too_large", 413⟩
  else do
    let body ← strictJson (json.loadsBytes raw)
    match chatContent body with
    | none => .error ⟨"unsupported_chat_request", 400⟩
    | some content =>
      let data ← strictJson (json.loads content)
      match chatInput data with
      | none => .error ⟨"invalid_todo_input", 400⟩
      | some input => .ok input

/-! ### validate_action and _normalized_result -/

def invalidModelResult : GatewayError := ⟨"invalid_model_result", 502⟩

/-- `valid` of `validate_action`. -/
def actionValid (action : List (PyStr × PyValue)) (items : List ChatItem) : Bool :=
  match PyValue.get (py "action") action with
  | some (.str kind) =>
    if kind = py "noop" then hasKeys action ["action"]
    else if kind = py "complete" ∨ kind = py "delete" then
      match PyValue.get (py "id") action with
      | some (.int ident) =>
        hasKeys action ["action", "id"] && decide (ident ∈ items.map ChatItem.id)
      | _ => false
    else if kind = py "add" then
      match PyValue.get (py "title") action, PyValue.get (py "delay_seconds") action,
        PyValue.get (py "repeat_seconds") action with
      | some (.str title), some (.int delay), some (.int repeats) =>
        hasKeys action ["action", "title", "delay_seconds", "repeat_seconds"] &&
          validText title 96 && decide (title.length ≤ 32) &&
          decide (0 ≤ delay ∧ delay ≤ 31622400) &&
          decide (repeats = 0 ∨ 60 ≤ repeats ∧ repeats ≤ 31622400)
      | _, _, _ => false
    else false
  | _ => false

/-- `validate_action` -/
def validateAction (json : JsonModule) (raw : PyStr) (items : List ChatItem) :
    Except GatewayError PyStr :=
  if ¬ validText raw maxActionBytes then .error invalidModelResult
  else
    match strictJson (json.loads raw) with
    | .ok (.dict action) =>
      if actionValid action items then .ok (dumpsCompact json.repr (.dict action))
      else .error invalidModelResult
    | _ => .error invalidModelResult

/-- `OUTPUT_SCHEMA["required"]` -/
def outputKeys : List String := ["action", "title", "id", "delay_seconds", "repeat_seconds"]

/-- The keys of an action of a kind. -/
def resultKeys (kind : PyStr) : Option (List String) :=
  if kind = py "add" then some ["action", "title", "delay_seconds", "repeat_seconds"]
  else if kind = py "complete" ∨ kind = py "delete" then some ["action", "id"]
  else if kind = py "noop" then some ["action"]
  else none

/-- `{k: obj[k] for k in keys}`, when the set of the keys is iterated in this order. -/
def chosen (obj : List (PyStr × PyValue)) (keys : List String) : List (PyStr × PyValue) :=
  keys.filterMap fun key ↦ (PyValue.get (py key) obj).map fun value ↦ (py key, value)

/-- `_normalized_result`; `iterate` is the order in which Python iterates over a set. An exception
of `json.dumps` is what `handle` makes of it. -/
def normalizedResult (json : JsonModule) (iterate : List String → List String) (raw : PyStr)
    (items : List ChatItem) : Except GatewayError PyStr :=
  if ¬ validText raw maxActionBytes then .error invalidModelResult
  else
    match strictJson (json.loads raw) with
    | .ok (.dict obj) =>
      if ¬ hasKeys obj outputKeys then .error invalidModelResult
      else
        match PyValue.get (py "action") obj with
        | some (.str kind) =>
          match resultKeys kind with
          | none => .error invalidModelResult
          | some keys =>
            if obj.any fun entry ↦
                !entry.2.isNone && !decide (∃ key ∈ keys, entry.1 = py key) then
              .error invalidModelResult
            else
              match json.dumps (.dict (chosen obj (iterate keys))) with
              | none => .error ⟨"subscription_request_failed", 502⟩
              | some text => validateAction json text items
        | _ => .error invalidModelResult
    | _ => .error invalidModelResult

end VibeUsage
