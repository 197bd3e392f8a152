import VibeUsage.Llm.Endpoint
import VibeUsage.Storage.Store

/-!
# The settings of the language model

The record of `llm_portal.h`, what `llm_settings_valid` asks of it, and how it is stored: all but
the language of the recognition in one blob with a checksum, and the language as a string under a
key of its own. Settings from before there was a language have no such key and are read as Chinese.

The arrays of a record that this program makes are zero behind their terminators, and so are those
of the blob.

`decodeLlm_storedLlm` is the round trip. `LlmSettings.Valid` has one field for each check of the
source, and `llmSettingsValid_iff` says so.
-/

namespace VibeUsage

/-! ### The record -/

/-- `LLM_ASR_UPLOAD_AUTO` -/
def llmAsrUploadAuto : UInt32 := 0

/-- `LLM_ASR_UPLOAD_MULTIPART` -/
def llmAsrUploadMultipart : UInt32 := 1

/-- `LLM_ASR_UPLOAD_BASE64_JSON` -/
def llmAsrUploadBase64Json : UInt32 := 2

/-- `sizeof(chat_url)`, `sizeof(asr_url)`, `sizeof(api_key)` and `sizeof(asr_key)` -/
def llmUrlBytes : ℕ := 256

/-- `sizeof(chat_model)` and `sizeof(asr_model)` -/
def llmModelBytes : ℕ := 64

/-- `sizeof(asr_language)` -/
def asrLanguageBytes : ℕ := 16

/-- An `llm_settings_t`. -/
structure LlmSettings where
  enabled : Bool
  /-- An `llm_asr_upload_t`, which may be out of range. -/
  asrUpload : UInt32
  chatUrl : CString
  chatModel : CString
  apiKey : CString
  asrUrl : CString
  asrModel : CString
  asrLanguage : CString
  asrKey : CString
  deriving DecidableEq

/-- The loop of `field` from an index on. -/
def fieldFrom (required : Bool) : (i : ℕ) → List UInt8 → Bool
  | _, [] => false
  | i, c :: rest =>
    if c = 0 then !required || decide (i > 0)
    else if c < 0x20 ∨ c = 0x7F then false
    else fieldFrom required (i + 1) rest

/-- A `char[capacity]` with this string. One that does not fit has no terminator. -/
def charArray (text : CString) (capacity : ℕ) : List UInt8 :=
  text.bytes.take capacity ++ List.replicate (capacity - text.bytes.length) 0

/-- `field` -/
def llmField (text : CString) (capacity : ℕ) (required : Bool) : Bool :=
  fieldFrom required 0 (charArray text capacity)

/-- `language_field` -/
def languageField (text : CString) (capacity : ℕ) : Bool :=
  llmField text capacity false &&
    text.bytes.all fun c ↦ alpha c || digit c || decide (c = '-'.toUInt8) ||
      decide (c = '_'.toUInt8)

/-- `llm_settings_valid` -/
def llmSettingsValid (settings : LlmSettings) : Bool :=
  decide (settings.asrUpload ≥ llmAsrUploadAuto) &&
  decide (settings.asrUpload ≤ llmAsrUploadBase64Json) &&
  llmField settings.chatUrl llmUrlBytes true &&
  llmField settings.asrUrl llmUrlBytes true &&
  llmEndpointValid settings.chatUrl && llmEndpointValid settings.asrUrl &&
  llmField settings.chatModel llmModelBytes true &&
  llmField settings.asrModel llmModelBytes true &&
  languageField settings.asrLanguage asrLanguageBytes &&
  llmField settings.apiKey llmUrlBytes false &&
  llmField settings.asrKey llmUrlBytes false

/-- `"zh"` -/
def defaultLanguage : CString := .ofBytes (ascii ['z', 'h'])

/-- `defaults` -/
def LlmSettings.defaults : LlmSettings where
  enabled := false
  asrUpload := llmAsrUploadAuto
  chatUrl := .ofBytes (ascii "https://api.openai.com/v1/chat/completions".toList)
  chatModel := .ofBytes (ascii "gpt-4o-mini".toList)
  apiKey := .empty
  asrUrl := .ofBytes (ascii "https://api.openai.com/v1/audio/transcriptions".toList)
  asrModel := .ofBytes (ascii "gpt-4o-mini-transcribe".toList)
  asrLanguage := defaultLanguage
  asrKey := .empty

/-! ### The blob -/

/-- One round of the inner loop of `crc32`. -/
def llmCrcBit (crc : UInt32) : UInt32 :=
  (crc >>> 1) ^^^ (if crc &&& 1 ≠ 0 then 0xEDB88320 else 0)

/-- `crc32` of `llm_settings.c` -/
def llmCrc32 (data : List UInt8) : UInt32 :=
  ~~~data.foldl (fun crc byte ↦ llmCrcBit^[8] (crc ^^^ byte.toUInt32)) 0xFFFFFFFF

/-- `"VLM1"` -/
def llmMagic : List UInt8 := ascii ['V', 'L', 'M', '1']

/-- `sizeof(stored_llm_t)` -/
def storedLlmBytes : ℕ := 1164

/-- A `stored_llm_t` up to its checksum, with the fields that `COPY_FIELDS` copies. -/
def storedLlmBody (settings : LlmSettings) : List UInt8 :=
  llmMagic ++ (Codec.u8 (if settings.enabled then 1 else 0) ++
    (Codec.u8 settings.asrUpload.toUInt8 ++ (Codec.u8 0 ++ (Codec.u8 0 ++
    (charArray settings.chatUrl llmUrlBytes ++ (charArray settings.chatModel llmModelBytes ++
    (charArray settings.apiKey llmUrlBytes ++ (charArray settings.asrUrl llmUrlBytes ++
    (charArray settings.asrModel llmModelBytes ++
      charArray settings.asrKey llmUrlBytes)))))))))

/-- The blob under `settings_v1`. -/
def storedLlm (settings : LlmSettings) : List UInt8 :=
  storedLlmBody settings ++ Codec.u32 (llmCrc32 (storedLlmBody settings))

open Codec (Decoder Decodes readBytes readU8 readU32)

/-- The members of a `stored_llm_t`, in their order. -/
def readStoredLlm (language : CString) : Decoder EspErr (LlmSettings × Bool) := do
  let magic ← readBytes 4 .invalidCrc
  let enabled ← readU8 .invalidCrc
  let upload ← readU8 .invalidCrc
  let reserved ← readU8 .invalidCrc
  let reserved' ← readU8 .invalidCrc
  let chatUrl ← readBytes llmUrlBytes .invalidCrc
  let chatModel ← readBytes llmModelBytes .invalidCrc
  let apiKey ← readBytes llmUrlBytes .invalidCrc
  let asrUrl ← readBytes llmUrlBytes .invalidCrc
  let asrModel ← readBytes llmModelBytes .invalidCrc
  let asrKey ← readBytes llmUrlBytes .invalidCrc
  pure ({
    enabled := decide (enabled ≠ 0)
    asrUpload := upload.toUInt32
    chatUrl := .ofBytes chatUrl
    chatModel := .ofBytes chatModel
    apiKey := .ofBytes apiKey
    asrUrl := .ofBytes asrUrl
    asrModel := .ofBytes asrModel
    asrLanguage := language
    asrKey := .ofBytes asrKey },
    decide (magic = llmMagic) && decide (enabled ≤ 1) &&
      decide (upload ≤ llmAsrUploadBase64Json.toUInt8) && decide (reserved = 0) &&
      decide (reserved' = 0))

/-- The checks of `llm_settings_load` on what it has read. -/
def decodeLlm (stored : List UInt8) (language : CString) : Except EspErr LlmSettings :=
  if stored.length ≠ storedLlmBytes then .error .invalidCrc
  else if llmCrc32 (stored.take (storedLlmBytes - 4)) ≠
      Codec.fromU32 (stored.drop (storedLlmBytes - 4)) then .error .invalidCrc
  else match (readStoredLlm language).run stored with
    | .error error => .error error
    | .ok ((settings, intact), _) =>
      if intact = true ∧ llmSettingsValid settings = true then .ok settings
      else .error .invalidCrc

/-! ### Loading and saving -/

/-- `nvs_get_blob` into a buffer of a size. -/
def nvsGetBlobInto (space : Namespace) (key : NvsKey) (size : ℕ) : Nvs (List UInt8) := do
  let bytes ← nvsGetBlob space key
  Prog.check (bytes.length ≤ size) .nvsInvalidLength
  pure bytes

/-- `nvs_get_str` into an array of a size. -/
def nvsGetStr (space : Namespace) (key : NvsKey) (size : ℕ) : Nvs CString := do
  match ← nvsGet space key with
  | .str bytes =>
    Prog.check (bytes.length + 1 ≤ size) .nvsInvalidLength
    pure (.ofBytes bytes)
  | _ => Prog.fail .nvsTypeMismatch

/-- The language under its key. -/
def readAsrLanguage : Nvs CString := do
  match ← (nvsGetStr .vibeLlm .asrLang asrLanguageBytes).attempt with
  | .error .nvsNotFound => pure defaultLanguage
  | .error error => Prog.fail error
  | .ok language => pure language

/-- The reads of `llm_settings_load`. -/
def readLlm : Nvs (List UInt8 × CString) := do
  nvsOpenReadOnly .vibeLlm
  let stored ← nvsGetBlobInto .vibeLlm .settings storedLlmBytes
  let language ← readAsrLanguage
  pure (stored, language)

/-- `llm_settings_load` -/
def llmSettingsLoad : Nvs LlmSettings := do
  match ← readLlm.attempt with
  | .error .nvsNotFound => pure .defaults
  | .error error => Prog.fail error
  | .ok (stored, language) => Prog.lift (decodeLlm stored language)

/-- `llm_settings_save` -/
def llmSettingsSave (settings : LlmSettings) : Nvs Unit := do
  Prog.check (llmSettingsValid settings = true) .invalidArg
  nvsOpen .vibeLlm
  nvsSet .vibeLlm .settings (.blob (storedLlm settings))
  nvsSet .vibeLlm .asrLang (.str settings.asrLanguage.bytes)
  nvsCommit

/-! ### What a valid record is -/

/-- What `llm_settings_valid` checks. -/
structure LlmSettings.Valid (settings : LlmSettings) : Prop where
  asrUpload : settings.asrUpload ≤ llmAsrUploadBase64Json
  chatUrl : llmField settings.chatUrl llmUrlBytes true = true
  chatEndpoint : llmEndpointValid settings.chatUrl = true
  asrUrl : llmField settings.asrUrl llmUrlBytes true = true
  asrEndpoint : llmEndpointValid settings.asrUrl = true
  chatModel : llmField settings.chatModel llmModelBytes true = true
  asrModel : llmField settings.asrModel llmModelBytes true = true
  asrLanguage : languageField settings.asrLanguage asrLanguageBytes = true
  apiKey : llmField settings.apiKey llmUrlBytes false = true
  asrKey : llmField settings.asrKey llmUrlBytes false = true

/-- The check of the source is the description of what is valid. -/
theorem llmSettingsValid_iff {settings : LlmSettings} :
    llmSettingsValid settings = true ↔ settings.Valid := by
  have hauto : settings.asrUpload ≥ llmAsrUploadAuto := Nat.zero_le _
  unfold llmSettingsValid
  simp only [Bool.and_eq_true, decide_eq_true_iff, hauto, true_and]
  constructor
  · rintro ⟨⟨⟨⟨⟨⟨⟨⟨⟨hupload, hchat⟩, hasr⟩, hchat'⟩, hasr'⟩, hmodel⟩, hmodel'⟩, hlanguage⟩, hkey⟩,
      hkey'⟩
    exact ⟨hupload, hchat, hchat', hasr, hasr', hmodel, hmodel', hlanguage, hkey, hkey'⟩
  · intro h
    exact ⟨⟨⟨⟨⟨⟨⟨⟨⟨h.asrUpload, h.chatUrl⟩, h.asrUrl⟩, h.chatEndpoint⟩, h.asrEndpoint⟩,
      h.chatModel⟩, h.asrModel⟩, h.asrLanguage⟩, h.apiKey⟩, h.asrKey⟩

/-- The defaults pass their own check. -/
theorem LlmSettings.valid_defaults : LlmSettings.defaults.Valid :=
  llmSettingsValid_iff.1 (by decide +kernel)

/-- A valid record with another language. -/
theorem LlmSettings.Valid.withLanguage {settings : LlmSettings} (h : settings.Valid)
    {language : CString} (hlanguage : languageField language asrLanguageBytes = true) :
    { settings with asrLanguage := language : LlmSettings }.Valid :=
  { h with asrLanguage := hlanguage }

/-- A field that passes is terminated. -/
theorem zero_mem_of_fieldFrom {required : Bool} {text : List UInt8} :
    ∀ {i : ℕ}, fieldFrom required i text = true → 0 ∈ text := by
  induction text with
  | nil =>
    intro i h
    cases h
  | cons c rest ih =>
    intro i h
    rw [fieldFrom] at h
    split at h
    · rename_i hzero
      exact hzero ▸ List.mem_cons_self
    split at h
    · cases h
    · exact List.mem_cons_of_mem _ (ih h)

/-- A field ends within its array. -/
theorem length_lt_of_llmField {text : CString} {capacity : ℕ} {required : Bool}
    (h : llmField text capacity required = true) : text.bytes.length < capacity := by
  by_contra hlong
  have hfull : capacity - text.bytes.length = 0 := by omega
  have hzero := zero_mem_of_fieldFrom h
  rw [charArray, hfull, List.replicate_zero, List.append_nil] at hzero
  exact text.noNul (List.mem_of_mem_take hzero)

/-- A language fits its array with the terminator. -/
theorem length_lt_of_languageField {text : CString} {capacity : ℕ}
    (h : languageField text capacity = true) : text.bytes.length < capacity :=
  length_lt_of_llmField (Bool.and_eq_true_iff.1 h).1

/-! ### The round trip -/

/-- An array has its length, whatever is in it. -/
theorem length_charArray (text : CString) (capacity : ℕ) :
    (charArray text capacity).length = capacity := by
  rw [charArray, List.length_append, List.length_take, List.length_replicate]
  omega

/-- An array holds the string that was copied to it. -/
theorem ofBytes_charArray {text : CString} {capacity : ℕ} (h : text.bytes.length < capacity) :
    CString.ofBytes (charArray text capacity) = text := by
  have hne : ∀ b ∈ text.bytes, decide (b ≠ 0) = true := fun b hb ↦
    decide_eq_true fun hzero ↦ text.noNul (hzero ▸ hb)
  apply CString.ext
  rw [CString.ofBytes_bytes, charArray, List.take_of_length_le h.le,
    List.takeWhile_append_of_pos hne, List.takeWhile_replicate]
  simp

/-- The fields before the checksum have a fixed length. -/
theorem length_storedLlmBody (settings : LlmSettings) :
    (storedLlmBody settings).length = storedLlmBytes - 4 := by
  have hmagic : llmMagic.length = 4 := rfl
  unfold storedLlmBody
  simp only [List.length_append, Codec.length_u8, length_charArray, hmagic]
  rfl

/-- So has the record. -/
theorem length_storedLlm (settings : LlmSettings) :
    (storedLlm settings).length = storedLlmBytes := by
  rw [storedLlm, List.length_append, length_storedLlmBody, Codec.length_u32]
  rfl

/-- The members are read as they were written. -/
theorem decodes_storedLlm {settings : LlmSettings} (h : settings.Valid) (language : CString) :
    Decodes (readStoredLlm language) (storedLlmBody settings)
      ({ settings with asrLanguage := language }, true) := by
  have hfield : ∀ (text : CString) (capacity : ℕ),
      Decodes (readBytes capacity EspErr.invalidCrc) (charArray text capacity)
        (charArray text capacity) := fun text capacity ↦
    .bytes _ (length_charArray text capacity) _
  refine .bind (.bytes llmMagic rfl _) (.bind (.u8 _ _) (.bind (.u8 _ _) (.bind (.u8 0 _)
    (.bind (.u8 0 _) (.bind (hfield settings.chatUrl _) (.bind (hfield settings.chatModel _)
    (.bind (hfield settings.apiKey _) (.bind (hfield settings.asrUrl _)
    (.bind (hfield settings.asrModel _) (.bind_nil (hfield settings.asrKey _)
    (.pure_of_eq ?_)))))))))))
  have hupload : settings.asrUpload = 0 ∨ settings.asrUpload = 1 ∨ settings.asrUpload = 2 := by
    have hle : settings.asrUpload.toNat ≤ 2 := h.asrUpload
    rcases (by omega : settings.asrUpload.toNat = 0 ∨ settings.asrUpload.toNat = 1 ∨
      settings.asrUpload.toNat = 2) with h0 | h1 | h2
    · exact .inl (UInt32.toNat_inj.1 h0)
    · exact .inr (.inl (UInt32.toNat_inj.1 h1))
    · exact .inr (.inr (UInt32.toNat_inj.1 h2))
  rw [ofBytes_charArray (length_lt_of_llmField h.chatUrl),
    ofBytes_charArray (length_lt_of_llmField h.chatModel),
    ofBytes_charArray (length_lt_of_llmField h.apiKey),
    ofBytes_charArray (length_lt_of_llmField h.asrUrl),
    ofBytes_charArray (length_lt_of_llmField h.asrModel),
    ofBytes_charArray (length_lt_of_llmField h.asrKey)]
  obtain ⟨enabled, upload, chatUrl, chatModel, apiKey, asrUrl, asrModel, asrLanguage, asrKey⟩ :=
    settings
  rcases hupload with hu | hu | hu <;> dsimp only at hu <;> subst hu <;> cases enabled <;> rfl

/-- **A saved record is read back**, with the language that is read beside it. -/
theorem decodeLlm_storedLlm {settings : LlmSettings} (h : settings.Valid) {language : CString}
    (hlanguage : languageField language asrLanguageBytes = true) :
    decodeLlm (storedLlm settings) language =
      .ok { settings with asrLanguage := language } := by
  have hlength := length_storedLlmBody settings
  have htake : (storedLlm settings).take (storedLlmBytes - 4) = storedLlmBody settings := by
    rw [storedLlm, ← hlength, List.take_left]
  have hdrop : (storedLlm settings).drop (storedLlmBytes - 4) =
      Codec.u32 (llmCrc32 (storedLlmBody settings)) := by
    rw [storedLlm, ← hlength, List.drop_left]
  unfold decodeLlm
  rw [if_neg (not_not.2 (length_storedLlm settings)), htake, hdrop, Codec.fromU32_u32,
    if_neg (not_not.2 rfl), storedLlm, decodes_storedLlm h language]
  exact if_pos ⟨rfl, llmSettingsValid_iff.2 (h.withLanguage hlanguage)⟩

end VibeUsage
