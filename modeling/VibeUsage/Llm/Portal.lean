import VibeUsage.Llm.Settings
import VibeUsage.Todo.Action

/-!
# The settings form

`save_settings` of `llm_portal.c`. The form is read field by field into the record that was loaded,
so a field that is refused comes after others that were already taken; what is saved is a record of
which every field was. `Overlaid` says which one: the loaded record with the form over it.

Whether a request is trusted is decided from its headers before the form is looked at, and is not
part of this file.

* `knownFieldsFrom_iff` says which fields a form may have.
* `readField_key_iff` and its siblings say what each field may be, and what is then put in the
  record.
* `saveSettings_spec` is the handler: it saves nothing, or the one record that `Overlaid` names.
-/

namespace VibeUsage

/-! ### Requests and answers -/

/-- What `httpd` has of a request for the settings. -/
structure PortalRequest where
  /-- `trusted_request(req, false)` -/
  trusted : Bool
  /-- The header, when it fits the array that it is read to. -/
  contentType : Option CString
  contentLen : ℕ
  /-- Whether the two buffers can be allocated. -/
  allocates : Bool
  /-- What `httpd_req_recv` returns, call by call, until it fails or it is too late. -/
  pieces : List (List UInt8)

/-- The redacted settings of `send_settings`. -/
structure PortalSettings where
  enabled : Bool
  chatUrl : CString
  chatModel : CString
  apiKeySet : Bool
  asrUrl : CString
  asrModel : CString
  asrLanguage : CString
  asrUpload : Option String
  asrKeySet : Bool

inductive PortalResponse
  | error (status message : String)
  | settings (settings : PortalSettings)

/-- `llm_asr_upload_name` -/
def llmAsrUploadName (upload : UInt32) : Option String :=
  if upload = llmAsrUploadAuto then some "auto"
  else if upload = llmAsrUploadMultipart then some "multipart"
  else if upload = llmAsrUploadBase64Json then some "base64_json"
  else none

/-- `llm_asr_upload_parse` -/
def llmAsrUploadParse (name : CString) : Option UInt32 :=
  if name = keyName "auto" then some llmAsrUploadAuto
  else if name = keyName "multipart" then some llmAsrUploadMultipart
  else if name = keyName "base64_json" then some llmAsrUploadBase64Json
  else none

/-- `send_settings`, while there is memory. -/
def sendSettings (settings : LlmSettings) : PortalResponse :=
  .settings {
    enabled := settings.enabled
    chatUrl := settings.chatUrl
    chatModel := settings.chatModel
    apiKeySet := decide (settings.apiKey ≠ .empty)
    asrUrl := settings.asrUrl
    asrModel := settings.asrModel
    asrLanguage := settings.asrLanguage
    asrUpload := llmAsrUploadName settings.asrUpload
    asrKeySet := decide (settings.asrKey ≠ .empty) }

/-! ### The body -/

/-- `MAX_CONFIG_BODY` -/
def maxConfigBody : ℕ := 4096

/-- The loop around `httpd_req_recv`. -/
def receiveBody (contentLen : ℕ) : (body : List UInt8) → List (List UInt8) → List UInt8
  | body, [] => body
  | body, piece :: pieces =>
    let received := piece.take (contentLen - body.length)
    if received = [] then body else receiveBody contentLen (body ++ received) pieces

/-- The loop of `flat_json_body`. -/
def flatJsonScan : (quoted escaped : Bool) → (depth : ℕ) → List UInt8 → Bool
  | quoted, _, depth, [] => !quoted && decide (depth = 0)
  | quoted, escaped, depth, c :: rest =>
    if quoted then
      if escaped then flatJsonScan quoted false depth rest
      else if c = 0x5C then flatJsonScan quoted true depth rest
      else if c = 0x22 then flatJsonScan false escaped depth rest
      else flatJsonScan quoted escaped depth rest
    else if c = 0x22 then flatJsonScan true escaped depth rest
    else if c = 0x5B ∨ c = 0x5D then false
    else if c = 0x7B then
      if depth + 1 > 1 then false else flatJsonScan quoted escaped (depth + 1) rest
    else if c = 0x7D then
      if depth = 0 then false else flatJsonScan quoted escaped (depth - 1) rest
    else flatJsonScan quoted escaped depth rest

/-- `flat_json_body` -/
def flatJsonBody (body : List UInt8) : Bool := flatJsonScan false false 0 body

/-- `strstr(body, needle) != NULL` -/
def strstr (body needle : List UInt8) : Bool := body.tails.any fun rest ↦ needle.isPrefixOf rest

/-- `"\\u0000"` -/
def escapedNul : List UInt8 := [0x5C, 0x75, 0x30, 0x30, 0x30, 0x30]

/-- The tree of a body that may be given to cJSON. -/
def portalJson (lib : Cjson) (request : PortalRequest) (body : List UInt8) : Option CJson :=
  if body.length = request.contentLen ∧ flatJsonBody body = true ∧ 0 ∉ body ∧
      strstr body escapedNul = false then lib.parse (.ofBytes body)
  else none

/-! ### The form -/

/-- The fields that `known_fields` allows. -/
def portalFields : List CString :=
  [keyName "enabled", keyName "chat_url", keyName "chat_model", keyName "api_key",
    keyName "asr_url", keyName "asr_model", keyName "asr_language", keyName "asr_upload",
    keyName "asr_key", keyName "clear_api_key", keyName "clear_asr_key"]

/-- The loop of `known_fields`, behind these names. -/
def knownFieldsFrom : (prior : List CString) → List (CString × CJson) → Bool
  | _, [] => true
  | prior, (name, _) :: rest =>
    if name ∉ portalFields then false
    else if name ∈ prior then false
    else knownFieldsFrom (prior ++ [name]) rest

/-- `known_fields` -/
def knownFields (json : List (CString × CJson)) : Bool := knownFieldsFrom [] json

/-- `cJSON_IsBool` -/
def CJson.isBool : CJson → Bool
  | .bool _ => true
  | _ => false

/-- `cJSON_IsTrue`, also of no node at all. -/
def isTrueItem : Option CJson → Bool
  | some (.bool b) => b
  | _ => false

/-- `cJSON_IsString(field) && strlen(field->valuestring) < capacity`, with the string. -/
def boundedString (capacity : ℕ) : CJson → Option CString
  | .string text => if text.bytes.length ≥ capacity then none else some text
  | _ => none

/-- `read_field`: the array afterwards, none when the form is refused. -/
def readField (json : List (CString × CJson)) (name : String) (out : CString) (capacity : ℕ)
    (key : Bool) (clearName : Option String) : Option CString :=
  let field := CJson.get (keyName name) json
  let clear := clearName.bind fun clearName ↦ CJson.get (keyName clearName) json
  if clear.any (!·.isBool) then none
  else if field.any fun field ↦ (boundedString capacity field).isNone then none
  else
    -- the string of a field that is there
    let text := field.bind (boundedString capacity)
    if key = false ∧ (text = none ∨ text = some .empty) then none
    else if isTrueItem clear then
      if text ≠ none ∧ text ≠ some .empty then none else some .empty
    else
      match text with
      | some text => if key = false ∨ text ≠ .empty then some text else some out
      | none => some out

/-- `read_upload` -/
def readUpload (json : List (CString × CJson)) (upload : UInt32) : Option UInt32 :=
  match CJson.get (keyName "asr_upload") json with
  | none => some upload
  | some (.string name) => llmAsrUploadParse name
  | some _ => none

/-- `read_language` -/
def readLanguage (json : List (CString × CJson)) (out : CString) (capacity : ℕ) : Option CString :=
  match CJson.get (keyName "asr_language") json with
  | none => some out
  | some field => boundedString capacity field

/-- The record that is saved, none when the body is not `valid`. -/
def portalRecord (json : Option CJson) (loaded : LlmSettings) : Option LlmSettings :=
  match json with
  | some (.object root) =>
    if knownFields root = false then none
    else match CJson.get (keyName "enabled") root with
      | some (.bool enabled) => do
        let chatUrl ← readField root "chat_url" loaded.chatUrl llmUrlBytes false none
        let chatModel ← readField root "chat_model" loaded.chatModel llmModelBytes false none
        let apiKey ← readField root "api_key" loaded.apiKey llmUrlBytes true (some "clear_api_key")
        let asrUrl ← readField root "asr_url" loaded.asrUrl llmUrlBytes false none
        let asrModel ← readField root "asr_model" loaded.asrModel llmModelBytes false none
        let asrLanguage ← readLanguage root loaded.asrLanguage asrLanguageBytes
        let asrUpload ← readUpload root loaded.asrUpload
        let asrKey ← readField root "asr_key" loaded.asrKey llmUrlBytes true (some "clear_asr_key")
        let settings : LlmSettings :=
          { enabled, asrUpload, chatUrl, chatModel, apiKey, asrUrl, asrModel, asrLanguage, asrKey }
        if llmSettingsValid settings then some settings else none
      | _ => none
  | _ => none

/-! ### save_settings -/

/-- The body of an answer with an error. -/
def errorBody (message : String) : String := "\x7b\"error\":\"" ++ message ++ "\"\x7d"

def portalForbidden : PortalResponse :=
  .error "403 Forbidden" (errorBody "Configuration session expired. Scan again.")

def portalMediaType : PortalResponse :=
  .error "415 Unsupported Media Type" (errorBody "Send application/json.")

def portalTooLarge : PortalResponse :=
  .error "413 Payload Too Large" (errorBody "Settings body must be 1-4096 bytes.")

def portalNoMemory : PortalResponse :=
  .error "503 Service Unavailable" (errorBody "Not enough memory.")

def portalStorageFailed : PortalResponse :=
  .error "500 Internal Server Error"
    (errorBody "Storage failed. Settings were not confirmed saved.")

def portalInvalid : PortalResponse :=
  .error "400 Bad Request"
    (errorBody ("Invalid settings. Use a full HTTPS endpoint or HTTP RFC1918 IPv4 endpoint; " ++
      "no query, fragment or credentials in URL."))

/-- `save_settings` from `llm_settings_load` on, with the tree of the body. -/
def saveForm (json : Option CJson) : Nvs PortalResponse := do
  match ← llmSettingsLoad.attempt with
  | .error _ => pure portalStorageFailed
  | .ok loaded =>
    match portalRecord json loaded with
    | none => pure portalInvalid
    | some settings =>
      match ← (llmSettingsSave settings).attempt with
      | .error _ => pure portalStorageFailed
      | .ok () => pure (sendSettings settings)

/-- `save_settings` -/
def saveSettings (lib : Cjson) (request : PortalRequest) : Nvs PortalResponse :=
  if request.trusted = false then pure portalForbidden
  else if request.contentType ≠ some (keyName "application/json") ∧
      request.contentType ≠ some (keyName "application/json; charset=utf-8") then
    pure portalMediaType
  else if request.contentLen = 0 ∨ request.contentLen > maxConfigBody then pure portalTooLarge
  else if request.allocates = false then pure portalNoMemory
  else saveForm (portalJson lib request (receiveBody request.contentLen [] request.pieces))

/-! ### What a form asks for -/

section

variable {root : List (CString × CJson)} {name clearName : String} {old new : CString}
  {capacity : ℕ} {loaded record : LlmSettings}

/-- A field that must be there, with a text. -/
structure Required (root : List (CString × CJson)) (name : String) (capacity : ℕ) (new : CString) :
    Prop where
  given : CJson.get (keyName name) root = some (.string new)
  ne : new ≠ .empty
  length : new.bytes.length < capacity

/-- A secret, by its field and the flag that clears it: it is kept unless the form has another one
or asks for it to be cleared, and not both. -/
structure KeyRule (capacity : ℕ) (field clear : Option CJson) (old new : CString) : Prop where
  /-- The flag is a flag. -/
  flag : ∀ v, clear = some v → ∃ b, v = .bool b
  /-- The field is a text that fits. -/
  text : ∀ v, field = some v → ∃ text, v = .string text ∧ text.bytes.length < capacity
  cleared : clear = some (.bool true) →
    (field = none ∨ field = some (.string .empty)) ∧ new = .empty
  kept : clear ≠ some (.bool true) → (field = none ∨ field = some (.string .empty)) → new = old
  taken : clear ≠ some (.bool true) → ∀ text, field = some (.string text) → text ≠ .empty →
    new = text

/-- The loaded record with the form over it. -/
structure Overlaid (root : List (CString × CJson)) (loaded record : LlmSettings) : Prop where
  known : ∀ child ∈ root, child.1 ∈ portalFields
  once : (root.map Prod.fst).Nodup
  enabled : CJson.get (keyName "enabled") root = some (.bool record.enabled)
  chatUrl : Required root "chat_url" llmUrlBytes record.chatUrl
  chatModel : Required root "chat_model" llmModelBytes record.chatModel
  apiKey : KeyRule llmUrlBytes (CJson.get (keyName "api_key") root)
    (CJson.get (keyName "clear_api_key") root) loaded.apiKey record.apiKey
  asrUrl : Required root "asr_url" llmUrlBytes record.asrUrl
  asrModel : Required root "asr_model" llmModelBytes record.asrModel
  asrLanguage : CJson.get (keyName "asr_language") root = none ∧
      record.asrLanguage = loaded.asrLanguage ∨
    CJson.get (keyName "asr_language") root = some (.string record.asrLanguage) ∧
      record.asrLanguage.bytes.length < asrLanguageBytes
  asrUpload : CJson.get (keyName "asr_upload") root = none ∧
      record.asrUpload = loaded.asrUpload ∨
    ∃ upload, CJson.get (keyName "asr_upload") root = some (.string upload) ∧
      llmAsrUploadParse upload = some record.asrUpload
  asrKey : KeyRule llmUrlBytes (CJson.get (keyName "asr_key") root)
    (CJson.get (keyName "clear_asr_key") root) loaded.asrKey record.asrKey

/-! ### What is read -/

/-- **The fields of a form** are known and come once. -/
theorem knownFieldsFrom_iff {prior : List CString} :
    knownFieldsFrom prior root = true ↔ (∀ child ∈ root, child.1 ∈ portalFields) ∧
      (root.map Prod.fst).Nodup ∧ ∀ child ∈ root, child.1 ∉ prior := by
  induction root generalizing prior with
  | nil => simp [knownFieldsFrom]
  | cons child rest ih =>
    obtain ⟨name, v⟩ := child
    rw [knownFieldsFrom]
    by_cases hknown : name ∈ portalFields
    · by_cases hprior : name ∈ prior
      · simp [hknown, hprior]
      · rw [if_neg (not_not.2 hknown), if_neg hprior, ih]
        simp only [List.mem_cons, List.map_cons, List.nodup_cons, List.mem_append, List.mem_map,
          forall_eq_or_imp, hknown, hprior, true_and, not_false_eq_true, List.not_mem_nil, or_false]
        constructor
        · rintro ⟨hrest, hnodup, hnew⟩
          refine ⟨hrest, ⟨?_, hnodup⟩, fun child hchild ↦ (not_or.1 (hnew child hchild)).1⟩
          rintro ⟨child, hchild, rfl⟩
          exact (not_or.1 (hnew child hchild)).2 rfl
        · rintro ⟨hrest, ⟨hfirst, hnodup⟩, hnew⟩
          exact ⟨hrest, hnodup, fun child hchild ↦ not_or.2 ⟨hnew child hchild,
            fun heq ↦ hfirst ⟨child, hchild, heq⟩⟩⟩
    · simp [hknown]

/-- A text that fits its array. -/
theorem boundedString_eq_some {v : CJson} {text : CString} :
    boundedString capacity v = some text ↔ v = .string text ∧ text.bytes.length < capacity := by
  cases v with
  | string given =>
    rw [boundedString]
    split
    · rename_i hlong
      refine iff_of_false nofun ?_
      rintro ⟨hgiven, hlength⟩
      obtain rfl := CJson.string.inj hgiven
      exact absurd hlong (not_le.2 hlength)
    · rename_i hfits
      rw [Option.some.injEq, CJson.string.injEq]
      exact ⟨fun h ↦ ⟨h, h ▸ not_le.1 hfits⟩, fun h ↦ h.1⟩
  | _ => exact iff_of_false nofun nofun

/-- A field that must be there. -/
theorem readField_required_iff :
    readField root name old capacity false none = some new ↔ Required root name capacity new := by
  unfold readField
  dsimp only [Option.bind_none, Option.any_none]
  rw [if_neg Bool.false_ne_true]
  cases hget : CJson.get (keyName name) root with
  | none =>
    refine iff_of_false (by simp) fun h ↦ ?_
    rw [h.given] at hget
    cases hget
  | some v =>
    cases htext : boundedString capacity v with
    | none =>
      refine iff_of_false (by simp [htext]) fun h ↦ ?_
      rw [h.given] at hget
      obtain rfl := Option.some.inj hget
      rw [boundedString_eq_some.2 ⟨rfl, h.length⟩] at htext
      cases htext
    | some text =>
      obtain ⟨rfl, hlength⟩ := boundedString_eq_some.1 htext
      have hgiven : Required root name capacity new ↔ text = new ∧ text ≠ .empty := by
        constructor
        · intro h
          rw [h.given] at hget
          obtain rfl := CJson.string.inj (Option.some.inj hget)
          exact ⟨rfl, h.ne⟩
        · rintro ⟨rfl, hne⟩
          exact ⟨hget, hne, hlength⟩
      rw [hgiven]
      by_cases hempty : text = .empty
      · subst hempty
        simp [htext]
      · simp [htext, hempty, isTrueItem]

/-- A field that is `true`. -/
theorem isTrueItem_iff {item : Option CJson} :
    isTrueItem item = true ↔ item = some (.bool true) := by
  unfold isTrueItem
  split
  · rename_i b
    cases b <;> simp
  · rename_i hnot
    refine iff_of_false (by simp) fun h ↦ hnot true h

/-- **A key** may be left as it is, cleared or replaced. -/
theorem readField_key_iff :
    readField root name old capacity true (some clearName) = some new ↔
      KeyRule capacity (CJson.get (keyName name) root) (CJson.get (keyName clearName) root)
        old new := by
  unfold readField
  dsimp only [Option.bind_some]
  generalize CJson.get (keyName name) root = field
  generalize CJson.get (keyName clearName) root = clear
  by_cases hflag : ∀ v, clear = some v → ∃ b, v = .bool b
  swap
  -- A flag that is no boolean is refused whatever the key is.
  · refine iff_of_false ?_ fun h ↦ hflag h.flag
    cases clear with
    | none => exact absurd (fun _ ↦ nofun) hflag
    | some v =>
      cases v with
      | bool b => exact absurd (fun _ hv ↦ ⟨b, (Option.some.inj hv).symm⟩) hflag
      | _ => exact nofun
  have hany : clear.any (!·.isBool) = false := by
    cases clear with
    | none => rfl
    | some v =>
      obtain ⟨b, rfl⟩ := hflag v rfl
      rfl
  rw [hany, if_neg Bool.false_ne_true]
  cases field with
  | none =>
    by_cases hclear : clear = some (.bool true)
    · subst hclear
      rw [if_neg (by simp), if_neg (by simp), if_pos (isTrueItem_iff.2 rfl), if_neg (by simp),
        Option.some.injEq]
      exact ⟨fun h ↦ ⟨hflag, nofun, fun _ ↦ ⟨Or.inl rfl, h.symm⟩, fun hne ↦ absurd rfl hne,
        fun hne ↦ absurd rfl hne⟩, fun h ↦ (h.cleared rfl).2.symm⟩
    · rw [if_neg (by simp), if_neg (by simp), if_neg (mt isTrueItem_iff.1 hclear)]
      rw [Option.bind_none, Option.some.injEq]
      exact ⟨fun h ↦ ⟨hflag, nofun, fun htrue ↦ absurd htrue hclear, fun _ _ ↦ h.symm,
        fun _ _ ↦ nofun⟩, fun h ↦ (h.kept hclear (Or.inl rfl)).symm⟩
  | some v =>
    cases htext : boundedString capacity v with
    | none =>
      rw [if_pos (by simp [htext])]
      refine iff_of_false nofun fun h ↦ ?_
      obtain ⟨text, rfl, hlength⟩ := h.text v rfl
      rw [boundedString_eq_some.2 ⟨rfl, hlength⟩] at htext
      cases htext
    | some text =>
      obtain ⟨rfl, hlength⟩ := boundedString_eq_some.1 htext
      have hfield : ∀ v, some (CJson.string text) = some v →
          ∃ text, v = .string text ∧ text.bytes.length < capacity := fun v hv ↦
        ⟨text, (Option.some.inj hv).symm, hlength⟩
      rw [if_neg (by simp [htext]), Option.bind_some, htext, if_neg (by simp)]
      by_cases hclear : clear = some (.bool true)
      · subst hclear
        rw [if_pos (isTrueItem_iff.2 rfl)]
        -- With `clear` set, only an empty key may be sent along.
        by_cases hempty : text = .empty
        · subst hempty
          rw [if_neg (by simp), Option.some.injEq]
          exact ⟨fun h ↦ ⟨hflag, hfield, fun _ ↦ ⟨Or.inr rfl, h.symm⟩, fun hne ↦ absurd rfl hne,
            fun hne ↦ absurd rfl hne⟩, fun h ↦ (h.cleared rfl).2.symm⟩
        · rw [if_pos ⟨by simp, by simp [hempty]⟩]
          refine iff_of_false nofun fun h ↦ ?_
          rcases (h.cleared rfl).1 with hnone | hsome
          · cases hnone
          · exact hempty (CJson.string.inj (Option.some.inj hsome))
      · rw [if_neg (mt isTrueItem_iff.1 hclear)]
        dsimp only
        by_cases hempty : text = .empty
        · subst hempty
          rw [if_neg (by simp), Option.some.injEq]
          exact ⟨fun h ↦ ⟨hflag, hfield, fun htrue ↦ absurd htrue hclear, fun _ _ ↦ h.symm,
            fun _ text htext hne ↦ absurd (CJson.string.inj (Option.some.inj htext)).symm hne⟩,
            fun h ↦ (h.kept hclear (Or.inr rfl)).symm⟩
        · rw [if_pos (Or.inr hempty), Option.some.injEq]
          refine ⟨fun h ↦ ⟨hflag, hfield, fun htrue ↦ absurd htrue hclear, fun _ hnone ↦ ?_,
            fun _ text' htext' _ ↦ ?_⟩, fun h ↦ (h.taken hclear text rfl hempty).symm⟩
          · rcases hnone with hnone | hsome
            · cases hnone
            · exact absurd (CJson.string.inj (Option.some.inj hsome)) hempty
          · exact h.symm.trans (CJson.string.inj (Option.some.inj htext'))

/-- A language may be left as it is. -/
theorem readLanguage_iff : readLanguage root old capacity = some new ↔
    CJson.get (keyName "asr_language") root = none ∧ new = old ∨
      CJson.get (keyName "asr_language") root = some (.string new) ∧
        new.bytes.length < capacity := by
  unfold readLanguage
  cases CJson.get (keyName "asr_language") root with
  | none =>
    dsimp only
    rw [Option.some.injEq]
    exact ⟨fun h ↦ Or.inl ⟨rfl, h.symm⟩, fun h ↦ by
      rcases h with ⟨-, h⟩ | ⟨h, -⟩
      · exact h.symm
      · cases h⟩
  | some v =>
    dsimp only
    rw [boundedString_eq_some]
    constructor
    · rintro ⟨rfl, hlength⟩
      exact Or.inr ⟨rfl, hlength⟩
    · rintro (⟨hnone, -⟩ | ⟨hsome, hlength⟩)
      · cases hnone
      · exact ⟨Option.some.inj hsome, hlength⟩

/-- So may the form of the upload. -/
theorem readUpload_iff {upload upload' : UInt32} : readUpload root upload = some upload' ↔
    CJson.get (keyName "asr_upload") root = none ∧ upload' = upload ∨
      ∃ name, CJson.get (keyName "asr_upload") root = some (.string name) ∧
        llmAsrUploadParse name = some upload' := by
  unfold readUpload
  cases CJson.get (keyName "asr_upload") root with
  | none => simp [eq_comm]
  | some v => cases v <;> simp

/-- **The record that is saved**: a form that breaks one rule gives none, whatever was read before
it. -/
theorem portalRecord_iff : portalRecord (some (.object root)) loaded = some record ↔
    Overlaid root loaded record ∧ llmSettingsValid record = true := by
  have hknown : knownFields root = true ↔
      (∀ child ∈ root, child.1 ∈ portalFields) ∧ (root.map Prod.fst).Nodup :=
    knownFieldsFrom_iff.trans ⟨fun h ↦ ⟨h.1, h.2.1⟩, fun h ↦ ⟨h.1, h.2, fun _ _ ↦ nofun⟩⟩
  rw [portalRecord]
  by_cases hfields : knownFields root = true
  swap
  · rw [if_pos (Bool.not_eq_true _ ▸ hfields)]
    exact iff_of_false nofun fun h ↦ hfields (hknown.2 ⟨h.1.known, h.1.once⟩)
  rw [if_neg (by simp [hfields])]
  split
  · rename_i enabled henabled
    simp only [Option.bind_eq_bind, Option.bind_eq_some_iff, readField_required_iff,
      readField_key_iff, readLanguage_iff, readUpload_iff, Option.ite_none_right_eq_some,
      Option.some.injEq]
    constructor
    · rintro ⟨chatUrl, hchat, chatModel, hmodel, apiKey, hkey, asrUrl, hasr, asrModel, hmodel',
        asrLanguage, hlanguage, asrUpload, hupload, asrKey, hkey', hvalid, rfl⟩
      exact ⟨⟨(hknown.1 hfields).1, (hknown.1 hfields).2, henabled, hchat, hmodel, hkey, hasr,
        hmodel', hlanguage, hupload, hkey'⟩, hvalid⟩
    · rintro ⟨h, hvalid⟩
      have heq : enabled = record.enabled :=
        CJson.bool.inj (Option.some.inj (henabled.symm.trans h.enabled))
      subst heq
      exact ⟨_, h.chatUrl, _, h.chatModel, _, h.apiKey, _, h.asrUrl, _, h.asrModel,
        _, h.asrLanguage, _, h.asrUpload, _, h.asrKey, hvalid, rfl⟩
  · rename_i hnot
    exact iff_of_false nofun fun h ↦ hnot _ h.1.enabled

end

/-! ### What is saved -/

/-- A request that is answered by saving a record. -/
structure SaveRequest (lib : Cjson) (request : PortalRequest) (b : Board)
    (root : List (CString × CJson)) (loaded record : LlmSettings) : Prop where
  trusted : request.trusted = true
  contentType : request.contentType = some (keyName "application/json") ∨
    request.contentType = some (keyName "application/json; charset=utf-8")
  contentLen : request.contentLen ≠ 0 ∧ request.contentLen ≤ maxConfigBody
  allocates : request.allocates = true
  tree : portalJson lib request (receiveBody request.contentLen [] request.pieces) =
    some (.object root)
  loads : (llmSettingsLoad b).1 = .ok loaded
  overlaid : Overlaid root loaded record
  valid : llmSettingsValid record = true

section

variable {lib : Cjson} {request : PortalRequest}

open Prog (Keeps Moves)

/-- A read leaves the flash as it is. -/
theorem keeps_operate (error : EspErr) : Moves (Keeps Board.flash) (operate id id error) := by
  intro b
  unfold operate
  split
  · split <;> rfl
  · rfl

/-- A namespace that is opened to be read. -/
theorem keeps_nvsOpenReadOnly (space : Namespace) :
    Moves (Keeps Board.flash) (nvsOpenReadOnly space) :=
  (keeps_operate _).bind fun _ ↦ Moves.get.bind fun _ ↦ Moves.check _

/-- A value that is read. -/
theorem keeps_nvsGet (space : Namespace) (key : NvsKey) :
    Moves (Keeps Board.flash) (nvsGet space key) := by
  refine (keeps_operate _).bind fun _ ↦ Moves.get.bind fun b ↦ ?_
  split
  · exact Moves.fail _
  · exact Moves.ret _
  · exact Moves.fail _

/-- A blob that is read into an array. -/
theorem keeps_nvsGetBlobInto (space : Namespace) (key : NvsKey) (size : ℕ) :
    Moves (Keeps Board.flash) (nvsGetBlobInto space key size) := by
  refine Moves.bind ((keeps_nvsGet space key).bind fun value ↦ ?_) fun _ ↦
    (Moves.check _).bind fun _ ↦ Moves.ret _
  split
  · exact Moves.ret _
  · exact Moves.fail _

/-- The language that is read. -/
theorem keeps_readAsrLanguage : Moves (Keeps Board.flash) readAsrLanguage := by
  have hread : Moves (Keeps Board.flash) (nvsGetStr .vibeLlm .asrLang asrLanguageBytes) := by
    refine (keeps_nvsGet _ _).bind fun value ↦ ?_
    split
    · exact (Moves.check _).bind fun _ ↦ Moves.ret _
    · exact Moves.fail _
  refine hread.attempt.bind fun result ↦ ?_
  split
  · exact Moves.ret _
  · exact Moves.fail _
  · exact Moves.ret _

/-- **Loading the settings changes nothing.** -/
theorem keeps_llmSettingsLoad : Moves (Keeps Board.flash) llmSettingsLoad := by
  have hread : Moves (Keeps Board.flash) readLlm :=
    (keeps_nvsOpenReadOnly _).bind fun _ ↦ (keeps_nvsGetBlobInto _ _ _).bind fun _ ↦
      keeps_readAsrLanguage.bind fun _ ↦ Moves.ret _
  refine hread.attempt.bind fun result ↦ ?_
  split
  · exact Moves.ret _
  · exact Moves.fail _
  · exact Moves.lift _

/-- The tree that is read is that of the whole body, which is standard JSON when cJSON is. -/
theorem tree_of_standard (hlib : lib.Standard) {root : List (CString × CJson)}
    {body : List UInt8} (htree : portalJson lib request body = some (.object root))
    {v : Rfc8259.Value} (htext : Rfc8259.IsJsonText v body) (hdepth : v.depth ≤ cjsonNestingLimit) :
    ∃ members, v = .object members ∧ root = CJson.ofMembers lib.toDouble members := by
  unfold portalJson at htree
  split at htree
  · rename_i hsafe
    have hbytes : (CString.ofBytes body).bytes = body := by
      rw [CString.ofBytes_bytes, List.takeWhile_eq_self_iff]
      exact fun c hc ↦ decide_eq_true fun hzero ↦ hsafe.2.2.1 (hzero ▸ hc)
    have hparse := hlib.parse_of_isJsonText (hbytes.symm ▸ htext) hdepth
    rw [hparse] at htree
    cases v with
    | object members =>
      rw [CJson.ofValue] at htree
      exact ⟨members, rfl, (CJson.object.inj (Option.some.inj htree)).symm⟩
    | _ =>
      rw [CJson.ofValue] at htree
      cases htree
  · cases htree

/-- Behind the answers to a request that is not looked at. -/
theorem saveForm_run (json : Option CJson) (b : Board) :
    (∃ root loaded record, json = some (.object root) ∧
      (llmSettingsLoad b).1 = .ok loaded ∧ Overlaid root loaded record ∧
      llmSettingsValid record = true ∧
      (saveForm json b).2 = (llmSettingsSave record (llmSettingsLoad b).2).2) ∨
    ((∀ root loaded record, json = some (.object root) → (llmSettingsLoad b).1 = .ok loaded →
      Overlaid root loaded record → llmSettingsValid record = true → False) ∧
      (saveForm json b).2.flash = b.flash) := by
  have hkeep : (llmSettingsLoad b).2.flash = b.flash := keeps_llmSettingsLoad b
  rw [saveForm, Prog.bind_of_ok (Prog.attempt_apply _ _)]
  cases hload : (llmSettingsLoad b).1 with
  | error e => exact Or.inr ⟨fun _ _ _ _ hok ↦ (nomatch hok), hkeep⟩
  | ok loaded =>
    dsimp only
    cases hrecord : portalRecord json loaded with
    | none =>
      refine Or.inr ⟨?_, hkeep⟩
      rintro root loaded' record rfl hok hover hvalid
      obtain rfl := Except.ok.inj hok
      rw [portalRecord_iff.2 ⟨hover, hvalid⟩] at hrecord
      cases hrecord
    | some record =>
      dsimp only
      have htree : ∃ root, json = some (.object root) := by
        unfold portalRecord at hrecord
        split at hrecord
        · exact ⟨_, rfl⟩
        · cases hrecord
      obtain ⟨root, rfl⟩ := htree
      obtain ⟨hover, hvalid⟩ := portalRecord_iff.1 hrecord
      refine Or.inl ⟨root, loaded, record, rfl, rfl, hover, hvalid, ?_⟩
      rw [Prog.bind_of_ok (Prog.attempt_apply _ _)]
      cases (llmSettingsSave record (llmSettingsLoad b).2).1 <;> rfl

end

/-- **A form saves nothing, or one valid record**: the loaded one with the form over it. It saves
nothing exactly when there is none. -/
theorem saveSettings_spec (lib : Cjson) (request : PortalRequest) (b : Board) :
    ((∀ root loaded record, ¬SaveRequest lib request b root loaded record) ∧
      (saveSettings lib request b).2.flash = b.flash) ∨
    ∃ root loaded record, SaveRequest lib request b root loaded record ∧
      (saveSettings lib request b).2 = (llmSettingsSave record (llmSettingsLoad b).2).2 ∧
      (lib.Standard → ∀ v, Rfc8259.IsJsonText v
          (receiveBody request.contentLen [] request.pieces) → v.depth ≤ cjsonNestingLimit →
        ∃ members, v = .object members ∧ root = CJson.ofMembers lib.toDouble members) := by
  rw [saveSettings]
  by_cases htrusted : request.trusted = false
  · rw [if_pos htrusted]
    exact Or.inl ⟨fun _ _ _ h ↦ by simp [h.trusted] at htrusted, rfl⟩
  by_cases htype : request.contentType ≠ some (keyName "application/json") ∧
      request.contentType ≠ some (keyName "application/json; charset=utf-8")
  · rw [if_neg htrusted, if_pos htype]
    exact Or.inl ⟨fun _ _ _ h ↦ h.contentType.elim htype.1 htype.2, rfl⟩
  by_cases hlength : request.contentLen = 0 ∨ request.contentLen > maxConfigBody
  · rw [if_neg htrusted, if_neg htype, if_pos hlength]
    exact Or.inl ⟨fun _ _ _ h ↦ hlength.elim h.contentLen.1 (not_lt.2 h.contentLen.2), rfl⟩
  by_cases hmemory : request.allocates = false
  · rw [if_neg htrusted, if_neg htype, if_neg hlength, if_pos hmemory]
    exact Or.inl ⟨fun _ _ _ h ↦ by simp [h.allocates] at hmemory, rfl⟩
  rw [if_neg htrusted, if_neg htype, if_neg hlength, if_neg hmemory]
  -- the request is one whose body is read
  rcases saveForm_run
    (portalJson lib request (receiveBody request.contentLen [] request.pieces)) b with
    ⟨root, loaded, record, htree, hloads, hover, hvalid, hrun⟩ | ⟨hnone, hflash⟩
  · refine Or.inr ⟨root, loaded, record, ⟨Bool.not_eq_false _ ▸ htrusted, ?_, ?_,
      Bool.not_eq_false _ ▸ hmemory, htree, hloads, hover, hvalid⟩, hrun,
      fun hlib v htext hdepth ↦ tree_of_standard hlib htree htext hdepth⟩
    · exact or_iff_not_imp_left.2 fun h ↦ not_not.1 fun h' ↦ htype ⟨h, h'⟩
    · exact ⟨fun h ↦ hlength (Or.inl h), not_lt.1 fun h ↦ hlength (Or.inr h)⟩
  · exact Or.inl ⟨fun root loaded record h ↦
      hnone root loaded record h.tree h.loads h.overlaid h.valid, hflash⟩

end VibeUsage
