import VibeUsage.Lib.Decimal
import VibeUsage.Todo.Model

/-!
# Reading an action

`smart_todo_json_safe` and `smart_todo_parse_action`. The tree that `cJSON_ParseWithOpts` builds is
a `CJson`; `Cjson` is that parser, of which no more is assumed than that it reads JSON.

A field that is missing has a default, a field of the wrong type is an error, and a field of another
name too. The number of an id is compared as the rational that the text names.
-/

namespace VibeUsage

open Rfc8259 (decimalText)

/-- A node of cJSON. A number whose `valuedouble` is not finite has no value here. -/
inductive CJson
  | null
  | bool (b : Bool)
  | number (valuedouble : Option ℚ)
  | string (valuestring : CString)
  | array (items : List CJson)
  | object (children : List (CString × CJson))

namespace CJson

/-- `cJSON_GetObjectItemCaseSensitive`. -/
def get (key : CString) : List (CString × CJson) → Option CJson
  | [] => none
  | (name, value) :: children => if name = key then some value else get key children

mutual

/-- The tree of a JSON value, when `toDouble` is the `strtod` of its numbers. -/
def ofValue (toDouble : List UInt8 → Option ℚ) : Rfc8259.Value → CJson
  | .null => .null
  | .bool b => .bool b
  | .number text => .number (toDouble text)
  | .string text => .string (.ofBytes text)
  | .array items => .array (ofItems toDouble items)
  | .object members => .object (ofMembers toDouble members)

def ofItems (toDouble : List UInt8 → Option ℚ) : List Rfc8259.Value → List CJson
  | [] => []
  | v :: vs => ofValue toDouble v :: ofItems toDouble vs

def ofMembers (toDouble : List UInt8 → Option ℚ) :
    List (List UInt8 × Rfc8259.Value) → List (CString × CJson)
  | [] => []
  | (name, v) :: members => (.ofBytes name, ofValue toDouble v) :: ofMembers toDouble members

end

end CJson

/-- `CJSON_NESTING_LIMIT` -/
def cjsonNestingLimit : ℕ := 1000

/-- cJSON, and the `strtod` behind its numbers. -/
structure Cjson where
  /-- `cJSON_ParseWithOpts(json, NULL, true)`. -/
  parse : CString → Option CJson
  toDouble : List UInt8 → Option ℚ

/-- cJSON reads JSON, and a small whole number is exactly that. -/
structure Cjson.Standard (lib : Cjson) : Prop where
  parse_of_isJsonText : ∀ {v : Rfc8259.Value} {text : CString}, Rfc8259.IsJsonText v text.bytes →
    v.depth ≤ cjsonNestingLimit → lib.parse text = some (CJson.ofValue lib.toDouble v)
  toDouble_decimalText : ∀ n < 2 ^ 53, lib.toDouble (decimalText n) = some (n : ℚ)

/-! ### smart_todo_json_safe -/

/-- The loop over the bytes. -/
def jsonScan : Bool → Bool → ℕ → List UInt8 → Bool
  | quoted, _, depth, [] => !quoted && depth == 0
  | quoted, escaped, depth, c :: rest =>
    if c = 0 then false
    else if quoted then
      if escaped then
        if c = 0x75 ∧ rest.take 4 = [0x30, 0x30, 0x30, 0x30] then false
        else jsonScan true false depth rest
      else if c = 0x5C then jsonScan true true depth rest
      else if c = 0x22 then jsonScan false false depth rest
      else jsonScan true false depth rest
    else if c = 0x22 then jsonScan true escaped depth rest
    else if c = 0x7B ∨ c = 0x5B then
      if depth + 1 > 12 then false else jsonScan false escaped (depth + 1) rest
    else if c = 0x7D ∨ c = 0x5D then
      if depth = 0 then false else jsonScan false escaped (depth - 1) rest
    else jsonScan false escaped depth rest

def smartTodoJsonSafe (json : List UInt8) : Bool :=
  if json.length = 0 ∨ json.length > 8192 then false else jsonScan false false 0 json

/-! ### smart_todo_parse_action -/

/-- A whole number from 0 to `max`. -/
def wholeNumber (max : UInt32) : CJson → Option UInt32
  | .number (some v) =>
    if v < 0 ∨ v > max.toNat ∨ (⌊v⌋ : ℚ) ≠ v then none else some (UInt32.ofNat ⌊v⌋.toNat)
  | _ => none

def uintField (root : List (CString × CJson)) (key : CString) (max : UInt32) : Option UInt32 :=
  match CJson.get key root with
  | none => some 0
  | some v => wholeNumber max v

/-- The ids of the array, all of them positive. -/
def idsOf : List CJson → Option (List UInt32)
  | [] => some []
  | item :: items => do
    let id ← wholeNumber (uint32Max - 1) item
    if id = 0 then none
    else return id :: (← idsOf items)

def keyName (name : String) : CString := .ofBytes (ascii name.toList)

/-- `ids_field`: the ids, none when there is no array. -/
def idsField (root : List (CString × CJson)) : Option (List UInt32) :=
  match CJson.get (keyName "ids") root with
  | none => some []
  | some (.array items) =>
    if items.length = 0 ∨ items.length > todoCapacity then none else idsOf items
  | some _ => none

def actionKeys : List CString :=
  [keyName "action", keyName "id", keyName "ids", keyName "title", keyName "delay_seconds",
    keyName "repeat_seconds"]

def actionKindOf (root : List (CString × CJson)) : Option TodoActionKind :=
  match CJson.get (keyName "action") root with
  | some (.string kind) =>
    if kind = keyName "add" then some .add
    else if kind = keyName "complete" then some .complete
    else if kind = keyName "delete" then some .delete
    else if kind = keyName "noop" then some .noop
    else none
  | _ => none

/-- The title, when there is one that fits its array. -/
def titleField (root : List (CString × CJson)) : Option CString :=
  match CJson.get (keyName "title") root with
  | none => some .empty
  | some (.string title) => if title.bytes.length ≥ todoTitleBytes then none else some title
  | some _ => none

/-- The last checks of `smart_todo_parse_action`. -/
def candidateValid (candidate : TodoAction) : Bool :=
  if candidate.kind = .add then
    ¬ (candidate.id ≠ 0 ∨ candidate.idCount ≠ 0 ∨ ¬ textValid candidate.title todoTitleBytes)
  else
    ¬ (candidate.delaySeconds ≠ 0 ∨ candidate.repeatSeconds ≠ 0 ∨ candidate.title.byteAt 0 ≠ 0 ∨
      (candidate.id ≠ 0 ∧ candidate.idCount ≠ 0) ∨
      (candidate.kind = .noop ↔ (candidate.id ≠ 0 ∨ candidate.idCount ≠ 0)))

/-- `candidate`, from the root on. -/
def candidateOf (root : List (CString × CJson)) : Option TodoAction :=
  if ¬ (∀ child ∈ root, child.1 ∈ actionKeys) ∨ ¬ (root.map Prod.fst).Nodup then none
  else do
    let kind ← actionKindOf root
    let id ← uintField root (keyName "id") (uint32Max - 1)
    let ids ← idsField root
    let delaySeconds ← uintField root (keyName "delay_seconds") todoMaxInterval
    let repeatSeconds ← uintField root (keyName "repeat_seconds") todoMaxInterval
    if repeatSeconds ≠ 0 ∧ repeatSeconds < 60 then none
    else
      let title ← titleField root
      let candidate : TodoAction :=
        { kind, id, idCount := UInt8.ofNat ids.length
          ids := .ofFn fun i ↦ ids.getD i.val 0, title, delaySeconds, repeatSeconds }
      if candidateValid candidate then some candidate else none

/-- `smart_todo_parse_action`: the error, if any, and the caller's action. -/
def smartTodoParseAction (lib : Cjson) (json : CString) (action : TodoAction) :
    Option EspErr × TodoAction :=
  if ¬ smartTodoJsonSafe json.bytes then (some .invalidArg, action)
  else
    match lib.parse json with
    | some (.object root) =>
      match candidateOf root with
      | some candidate => (none, candidate)
      | none => (some .invalidResponse, action)
    | _ => (some .invalidResponse, action)

end VibeUsage
