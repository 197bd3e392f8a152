import VibeUsage.Llm.Settings
import VibeUsage.Storage.Erasing

/-!
# What is left of a save

`llm_settings_save` writes two keys, one after the other, and there is nothing that ties them
together. When it stops between them, the new blob stands beside the language that was there before.
That is still a valid record: a load never fails on what saving and clearing leave behind, whatever
failed on the way, and it mixes no more than the language of one record with the rest of the other.

A write of one key is done or not done: no operation tears.

`llmStored_afterLlmCalls` is the invariant of the two keys over any saves and clearings, and
`loadLlm_after_save` what follows for a load. `loadLlm_mixes` is a run in which the power goes
between the two writes, so that neither of the two records is what is loaded.
-/

namespace VibeUsage

/-- No write is torn. -/
def NoTears (faults : ℕ → Fault) : Prop := ∀ k, faults k ≠ .tears

/-- A device that was just started with this flash. -/
def Board.booted (flash : Flash) (faults : ℕ → Fault) : Board where
  flash
  powered := true
  tick := 0
  faults

/-- What `llm_settings_load` returns when no operation of it fails. -/
def loadLlm (flash : Flash) : Except EspErr LlmSettings :=
  (llmSettingsLoad (.booted flash fun _ ↦ .none)).1

/-- The calls that write. -/
inductive LlmCall
  | save (settings : LlmSettings)
  | clear

def LlmCall.run : LlmCall → Nvs Unit
  | .save settings => llmSettingsSave settings
  | .clear => llmSettingsClear

/-- The flash after these calls, each between two starts of the device and with its own faults. -/
def afterLlmCalls (flash : Flash) (calls : List (LlmCall × (ℕ → Fault))) : Flash :=
  calls.foldl (fun flash call ↦ (call.1.run (.booted flash call.2)).2.flash) flash

/-- The language that a load takes. -/
def languageOf (flash : Flash) : CString :=
  match flash.lookup .vibeLlm .asrLang with
  | some (.str bytes) => .ofBytes bytes
  | _ => defaultLanguage

/-- What the two keys hold. -/
structure LlmStored (flash : Flash) : Prop where
  settings : flash.lookup .vibeLlm .settings = none ∨
    ∃ record : LlmSettings, record.Valid ∧
      flash.lookup .vibeLlm .settings = some (.blob (storedLlm record))
  language : flash.lookup .vibeLlm .asrLang = none ∨
    ∃ language : CString, languageField language asrLanguageBytes = true ∧
      flash.lookup .vibeLlm .asrLang = some (.str language.bytes)

/-! ### Loading -/

section

variable {flash : Flash} {b : Board} {settings : LlmSettings}

/-- A board without faults works. -/
theorem Board.works_booted (flash : Flash) : (Board.booted flash fun _ ↦ .none).Works :=
  ⟨rfl, fun _ _ ↦ rfl⟩

/-- An entry that is not there. -/
theorem nvsGet_of_none (hb : b.Works) {space : Namespace} {key : NvsKey}
    (h : b.flash.lookup space key = none) :
    nvsGet space key b = (.error .nvsNotFound, b.leaves b.flash) := by
  rw [nvsGet, Prog.bind_of_ok (operate_of_none hb.powered (hb.faults _ le_rfl)),
    Prog.bind_of_ok (Prog.get_apply _)]
  dsimp only [id, Board.leaves_flash]
  rw [h]
  rfl

/-- An entry that is there, and was not torn. -/
theorem nvsGet_of_some (hb : b.Works) {space : Namespace} {key : NvsKey} {value : NvsValue}
    (h : b.flash.lookup space key = some value) (hvalue : value ≠ .torn) :
    nvsGet space key b = (.ok value, b.leaves b.flash) := by
  rw [nvsGet, Prog.bind_of_ok (operate_of_none hb.powered (hb.faults _ le_rfl)),
    Prog.bind_of_ok (Prog.get_apply _)]
  dsimp only [id, Board.leaves_flash]
  rw [h]
  cases value with
  | torn => exact absurd rfl hvalue
  | _ => rfl

/-- The language is read, or taken to be the one from before there was a language. -/
theorem readAsrLanguage_run (hb : b.Works) (hstored : LlmStored b.flash) :
    readAsrLanguage b = (.ok (languageOf b.flash), b.leaves b.flash) := by
  rw [readAsrLanguage, languageOf]
  rcases hstored.language with hnone | ⟨language, hlanguage, hsome⟩
  · have hget : nvsGetStr .vibeLlm .asrLang asrLanguageBytes b =
        (.error .nvsNotFound, b.leaves b.flash) := by
      rw [nvsGetStr, Prog.bind_of_error (nvsGet_of_none hb hnone)]
    rw [Prog.bind_of_ok (by rw [Prog.attempt_apply, hget]), hnone]
    rfl
  · have hfits : language.bytes.length + 1 ≤ asrLanguageBytes :=
      length_lt_of_languageField hlanguage
    have hget : nvsGetStr .vibeLlm .asrLang asrLanguageBytes b =
        (.ok (.ofBytes language.bytes), b.leaves b.flash) := by
      rw [nvsGetStr, Prog.bind_of_ok (nvsGet_of_some hb hsome nofun)]
      dsimp only
      rw [Prog.check_of_pos hfits]
      rfl
    rw [Prog.bind_of_ok (by rw [Prog.attempt_apply, hget]), hsome]
    rfl

/-- What is stored as the language is one. -/
theorem languageOf_valid (hstored : LlmStored flash) :
    languageField (languageOf flash) asrLanguageBytes = true := by
  rw [languageOf]
  rcases hstored.language with hnone | ⟨language, hlanguage, hsome⟩
  · rw [hnone]
    decide +kernel
  · rw [hsome]
    dsimp only
    rwa [CString.ofBytes_bytes_self]

/-- A namespace that is there can be read. -/
theorem nvsOpenReadOnly_of_isSome (hb : b.Works) {space : Namespace}
    (h : (b.flash space).isSome = true) :
    nvsOpenReadOnly space b = (.ok (), b.leaves b.flash) := by
  rw [nvsOpenReadOnly, Prog.bind_of_ok (operate_of_none hb.powered (hb.faults _ le_rfl)),
    Prog.bind_of_ok (Prog.get_apply _)]
  exact congrFun (Prog.check_of_pos h) _

/-- One that is not cannot. -/
theorem nvsOpenReadOnly_of_none (hb : b.Works) {space : Namespace} (h : b.flash space = none) :
    nvsOpenReadOnly space b = (.error .nvsNotFound, b.leaves b.flash) := by
  have hnot : ¬(b.flash space).isSome = true := by simp [h]
  rw [nvsOpenReadOnly, Prog.bind_of_ok (operate_of_none hb.powered (hb.faults _ le_rfl)),
    Prog.bind_of_ok (Prog.get_apply _)]
  exact congrFun (Prog.check_of_neg hnot) _

/-- A blob that is not there. -/
theorem nvsGetBlobInto_of_none (hb : b.Works) {space : Namespace} {key : NvsKey} (size : ℕ)
    (h : b.flash.lookup space key = none) :
    nvsGetBlobInto space key size b = (.error .nvsNotFound, b.leaves b.flash) := by
  have hget : nvsGetBlob space key b = (.error .nvsNotFound, b.leaves b.flash) := by
    rw [nvsGetBlob, Prog.bind_of_error (nvsGet_of_none hb h)]
  rw [nvsGetBlobInto, Prog.bind_of_error hget]

/-- A blob that fits the array. -/
theorem nvsGetBlobInto_of_some (hb : b.Works) {space : Namespace} {key : NvsKey} {size : ℕ}
    {bytes : List UInt8} (h : b.flash.lookup space key = some (.blob bytes))
    (hsize : bytes.length ≤ size) :
    nvsGetBlobInto space key size b = (.ok bytes, b.leaves b.flash) := by
  have hget : nvsGetBlob space key b = (.ok bytes, b.leaves b.flash) := by
    rw [nvsGetBlob, Prog.bind_of_ok (nvsGet_of_some hb h nofun)]
    rfl
  rw [nvsGetBlobInto, Prog.bind_of_ok hget, Prog.check_of_pos hsize]
  rfl

/-- Without a blob there are the defaults. -/
theorem loadLlm_of_none (h : flash.lookup .vibeLlm .settings = none) :
    loadLlm flash = .ok .defaults := by
  have hload : ∀ b : Board, b.Works → b.flash.lookup .vibeLlm .settings = none →
      ∃ b', readLlm b = (.error .nvsNotFound, b') := by
    intro b hb hnone
    rw [readLlm]
    cases hspace : b.flash .vibeLlm with
    | none => exact ⟨_, Prog.bind_of_error (nvsOpenReadOnly_of_none hb hspace)⟩
    | some entries =>
      rw [Prog.bind_of_ok (nvsOpenReadOnly_of_isSome hb (Option.isSome_of_eq_some hspace))]
      exact ⟨_, Prog.bind_of_error (nvsGetBlobInto_of_none (hb.leaves b.flash) _ hnone)⟩
  obtain ⟨b', hread⟩ := hload _ (Board.works_booted flash) h
  rw [loadLlm, llmSettingsLoad, Prog.bind_of_ok (by rw [Prog.attempt_apply, hread])]
  rfl

/-- With a blob there is its record, in the language that is stored. -/
theorem loadLlm_of_some (hstored : LlmStored flash) (hvalid : settings.Valid)
    (h : flash.lookup .vibeLlm .settings = some (.blob (storedLlm settings))) :
    loadLlm flash = .ok { settings with asrLanguage := languageOf flash } := by
  have hload : ∀ b : Board, b.Works → LlmStored b.flash →
      b.flash.lookup .vibeLlm .settings = some (.blob (storedLlm settings)) →
      ∃ b', readLlm b = (.ok (storedLlm settings, languageOf b.flash), b') := by
    intro b hb hstored hsome
    have hspace : (b.flash .vibeLlm).isSome = true := by
      by_contra hnone
      rw [Flash.lookup, Option.not_isSome_iff_eq_none.1 hnone] at hsome
      cases hsome
    have hblob := nvsGetBlobInto_of_some (hb.leaves b.flash) hsome (length_storedLlm settings).le
    have hlanguage := readAsrLanguage_run ((hb.leaves b.flash).leaves b.flash) hstored
    rw [readLlm, Prog.bind_of_ok (nvsOpenReadOnly_of_isSome hb hspace), Prog.bind_of_ok hblob,
      Board.leaves_flash, Prog.bind_of_ok hlanguage]
    exact ⟨_, rfl⟩
  obtain ⟨b', hread⟩ := hload _ (Board.works_booted flash) hstored h
  rw [loadLlm, llmSettingsLoad, Prog.bind_of_ok (by rw [Prog.attempt_apply, hread])]
  dsimp only
  rw [Board.booted, decodeLlm_storedLlm hvalid (languageOf_valid hstored)]
  rfl

end

/-! ### What a call leaves -/

section

variable {P Q : Flash → Prop} {b : Board} {settings : LlmSettings}

/-- On this board the flash has a property, and no write is torn. -/
def On (P : Flash → Prop) (b : Board) : Prop := NoTears b.faults ∧ P b.flash

/-- **An operation is done or it is not**, whatever it returns. -/
theorem triple_operate {effect torn : Flash → Flash} {error : EspErr}
    (h : ∀ flash, P flash → Q (effect flash)) :
    Prog.Triple (On P) (operate effect torn error) (fun _ ↦ On Q)
      fun _ ↦ On fun flash ↦ P flash ∨ Q flash := by
  rintro b ⟨htears, hp⟩
  unfold operate
  split
  · cases hfault : b.faults b.tick with
    | none => exact ⟨htears, h _ hp⟩
    | fails => exact ⟨htears, Or.inl hp⟩
    | lands => exact ⟨htears, Or.inr (h _ hp)⟩
    | tears => exact absurd hfault (htears _)
    | cut => exact ⟨htears, Or.inl hp⟩
  · exact ⟨htears, Or.inl hp⟩

/-- **Valid settings are saved** as a blob and a text, in two writes. -/
theorem llmSettingsSave_of_valid (h : settings.Valid) : llmSettingsSave settings = (do
    nvsOpen .vibeLlm
    nvsSet .vibeLlm .settings (.blob (storedLlm settings))
    nvsSet .vibeLlm .asrLang (.str settings.asrLanguage.bytes)
    nvsCommit) := by
  rw [llmSettingsSave, Prog.check_of_pos (llmSettingsValid_iff.2 h)]
  rfl

/-- The two keys hold these values. -/
def Keys (record language : Option NvsValue) (flash : Flash) : Prop :=
  flash.lookup .vibeLlm .settings = record ∧ flash.lookup .vibeLlm .asrLang = language

/-- The save of a valid record: it stops before its first write, between the two or behind them. -/
theorem triple_llmSettingsSave (hvalid : settings.Valid) (record language : Option NvsValue) :
    Prog.Triple (On (Keys record language)) (llmSettingsSave settings)
      (fun _ ↦ On (Keys (some (.blob (storedLlm settings)))
        (some (.str settings.asrLanguage.bytes))))
      fun _ ↦ On fun flash ↦ Keys record language flash ∨
        Keys (some (.blob (storedLlm settings))) language flash ∨
        Keys (some (.blob (storedLlm settings)))
          (some (.str settings.asrLanguage.bytes)) flash := by
  have hopen : ∀ flash, Keys record language flash →
      Keys record language (flash.create .vibeLlm) := by
    rintro flash ⟨hrecord, hlanguage⟩
    exact ⟨by rw [Flash.lookup_create, hrecord], by rw [Flash.lookup_create, hlanguage]⟩
  have hblob : ∀ flash, Keys record language flash →
      Keys (some (.blob (storedLlm settings))) language
        (flash.put .vibeLlm .settings (.blob (storedLlm settings))) := by
    rintro flash ⟨-, hlanguage⟩
    exact ⟨by rw [Flash.lookup_put, if_pos ⟨rfl, rfl⟩],
      by rw [Flash.lookup_put, if_neg (by decide), hlanguage]⟩
  have hstr : ∀ flash, Keys (some (.blob (storedLlm settings))) language flash →
      Keys (some (.blob (storedLlm settings))) (some (.str settings.asrLanguage.bytes))
        (flash.put .vibeLlm .asrLang (.str settings.asrLanguage.bytes)) := by
    rintro flash ⟨hrecord, -⟩
    exact ⟨by rw [Flash.lookup_put, if_neg (by decide), hrecord],
      by rw [Flash.lookup_put, if_pos ⟨rfl, rfl⟩]⟩
  rw [llmSettingsSave_of_valid hvalid]
  refine .bind (.conseq (triple_operate hopen) (fun _ ↦ id) (fun _ _ ↦ id) ?_) fun _ ↦
    .bind (.conseq (triple_operate hblob) (fun _ ↦ id) (fun _ _ ↦ id) ?_) fun _ ↦
    .bind (.conseq (triple_operate hstr) (fun _ ↦ id) (fun _ _ ↦ id) ?_) fun _ ↦
    .conseq (triple_operate fun _ ↦ id) (fun _ ↦ id) (fun _ _ ↦ id) ?_
  all_goals
    rintro error b ⟨htears, hflash⟩
    refine ⟨htears, ?_⟩
    tauto

/-- Two keys that can be read are settings that are stored. -/
theorem LlmStored.of_keys {flash : Flash} {language : Option NvsValue} (hvalid : settings.Valid)
    (hkeys : Keys (some (.blob (storedLlm settings))) language flash)
    (hlanguage : language = none ∨ ∃ text : CString,
      languageField text asrLanguageBytes = true ∧ language = some (.str text.bytes)) :
    LlmStored flash where
  settings := Or.inr ⟨settings, hvalid, hkeys.1⟩
  language := by
    rw [hkeys.2]
    exact hlanguage

/-- What a save leaves can be loaded. -/
theorem llmStored_save {record : LlmSettings} {faults : ℕ → Fault} (hfaults : NoTears faults)
    {flash : Flash} (hstored : LlmStored flash) :
    LlmStored (llmSettingsSave record (.booted flash faults)).2.flash := by
  by_cases hvalid : record.Valid
  · have hend := triple_llmSettingsSave hvalid _ _ (.booted flash faults) ⟨hfaults, rfl, rfl⟩
    have hnew : (some (.str record.asrLanguage.bytes) : Option NvsValue) = none ∨
        ∃ text : CString, languageField text asrLanguageBytes = true ∧
          some (.str record.asrLanguage.bytes) = some (NvsValue.str text.bytes) :=
      Or.inr ⟨_, hvalid.asrLanguage, rfl⟩
    rcases hrun : llmSettingsSave record (.booted flash faults) with ⟨error | done, b'⟩
    · rw [hrun] at hend
      obtain ⟨-, hkeys | hkeys | hkeys⟩ := hend
      · exact ⟨hkeys.1 ▸ hstored.settings, hkeys.2 ▸ hstored.language⟩
      · exact .of_keys hvalid hkeys hstored.language
      · exact .of_keys hvalid hkeys hnew
    · rw [hrun] at hend
      exact .of_keys hvalid hend.2 hnew
  · rw [llmSettingsSave, Prog.check_of_neg fun h ↦ hvalid (llmSettingsValid_iff.1 h)]
    exact hstored

/-- An operation that keeps a property. -/
theorem triple_keep {effect torn : Flash → Flash} {error : EspErr}
    (h : ∀ flash, P flash → P (effect flash)) :
    Prog.Triple (On P) (operate effect torn error) (fun _ ↦ On P) fun _ ↦ On P :=
  .conseq (triple_operate h) (fun _ ↦ id) (fun _ _ ↦ id) fun _ _ hon ↦ ⟨hon.1, hon.2.elim id id⟩

/-- An erasure, whatever becomes of it. -/
theorem triple_eraseKey {space : Namespace} {key : NvsKey}
    (h : ∀ flash, P flash → P (flash.erase space key)) :
    Prog.Triple (On P) (ignoreNotFound (nvsEraseKey space key)) (fun _ ↦ On P) fun _ ↦ On P := by
  have herase : Prog.Triple (On P) (nvsEraseKey space key) (fun _ ↦ On P) fun _ ↦ On P := by
    refine .get fun b hb ↦ .conseq
      (.bind (triple_keep h) fun _ ↦ .check (fun _ _ ↦ id) fun _ _ ↦ id)
      ?_ (fun _ _ ↦ id) fun _ _ ↦ id
    rintro _ rfl
    exact hb
  refine .bind herase.attempt fun outcome ↦ ?_
  rcases outcome with error | done
  · cases error with
    | nvsNotFound => exact fun _ hon ↦ hon
    | _ => exact fun _ hon ↦ hon
  · exact fun _ hon ↦ hon

/-- Clearing erases the two keys, or leaves one of them. -/
theorem llmStored_clear {faults : ℕ → Fault} (hfaults : NoTears faults) {flash : Flash}
    (hstored : LlmStored flash) :
    LlmStored (llmSettingsClear (.booted flash faults)).2.flash := by
  have hcreate : ∀ flash, LlmStored flash → LlmStored (flash.create .vibeLlm) := by
    intro flash h
    exact ⟨by rw [Flash.lookup_create]; exact h.settings,
      by rw [Flash.lookup_create]; exact h.language⟩
  have hsettings : ∀ flash, LlmStored flash → LlmStored (flash.erase .vibeLlm .settings) := by
    intro flash h
    exact ⟨Or.inl (by rw [Flash.lookup_erase, if_pos ⟨rfl, rfl⟩]),
      by rw [Flash.lookup_erase, if_neg (by decide)]; exact h.language⟩
  have hlanguage : ∀ flash, LlmStored flash → LlmStored (flash.erase .vibeLlm .asrLang) := by
    intro flash h
    exact ⟨by rw [Flash.lookup_erase, if_neg (by decide)]; exact h.settings,
      Or.inl (by rw [Flash.lookup_erase, if_pos ⟨rfl, rfl⟩])⟩
  have hlift : ∀ outcome : Except EspErr Unit, Prog.Triple (On LlmStored)
      (Prog.lift outcome : Nvs Unit) (fun _ ↦ On LlmStored) fun _ ↦ On LlmStored := by
    rintro (error | done)
    · exact fun _ hon ↦ hon
    · exact fun _ hon ↦ hon
  have hboth : Prog.Triple (On LlmStored) (eraseBoth .vibeLlm .settings .asrLang)
      (fun _ ↦ On LlmStored) fun _ ↦ On LlmStored :=
    .bind (triple_eraseKey hsettings).attempt fun first ↦
      .bind (triple_eraseKey hlanguage).attempt fun second ↦
        .bind (hlift first) fun _ ↦ hlift second
  have hclear : Prog.Triple (On LlmStored) llmSettingsClear (fun _ ↦ On LlmStored)
      fun _ ↦ On LlmStored := by
    refine .bind (triple_keep hcreate).attempt fun outcome ↦ ?_
    rcases outcome with error | done
    · cases error with
      | nvsNotFound => exact fun _ hon ↦ hon
      | _ => exact fun _ hon ↦ hon
    · exact .bind hboth fun _ ↦ triple_keep fun _ ↦ id
  have hend := hclear (.booted flash faults) ⟨hfaults, hstored⟩
  rcases hrun : llmSettingsClear (.booted flash faults) with ⟨error | done, b'⟩
  · rw [hrun] at hend
    exact hend.2
  · rw [hrun] at hend
    exact hend.2

/-- A blank flash has the default settings. -/
theorem llmStored_blank : LlmStored .blank := ⟨Or.inl rfl, Or.inl rfl⟩

/-- **Saving and clearing leave what can be loaded**, whatever fails on the way. -/
theorem llmStored_afterLlmCalls {calls : List (LlmCall × (ℕ → Fault))}
    (hcalls : ∀ call ∈ calls, NoTears call.2) {flash : Flash} (hstored : LlmStored flash) :
    LlmStored (afterLlmCalls flash calls) := by
  induction calls generalizing flash with
  | nil => exact hstored
  | cons call calls ih =>
    obtain ⟨call, faults⟩ := call
    have hfaults : NoTears faults := hcalls _ List.mem_cons_self
    refine ih (fun call hcall ↦ hcalls call (List.mem_cons_of_mem _ hcall)) ?_
    cases call with
    | save record => exact llmStored_save hfaults hstored
    | clear => exact llmStored_clear hfaults hstored

end

/-! ### The save -/

section

variable {flash : Flash} {record language : Option NvsValue} {settings : LlmSettings}

/-- What is stored can be loaded, and is valid. -/
theorem exists_loadLlm (hstored : LlmStored flash) : ∃ old : LlmSettings,
    loadLlm flash = .ok old ∧ old.Valid ∧
      (flash.lookup .vibeLlm .settings ≠ none → old.asrLanguage = languageOf flash) := by
  rcases hstored.settings with hnone | ⟨record, hvalid, hsome⟩
  · exact ⟨_, loadLlm_of_none hnone, LlmSettings.valid_defaults, fun h ↦ absurd hnone h⟩
  · exact ⟨_, loadLlm_of_some hstored hvalid hsome,
      hvalid.withLanguage (languageOf_valid hstored), fun _ ↦ rfl⟩

/-- The language depends on its own key only. -/
theorem languageOf_of_lookup {flash flash' : Flash}
    (h : flash'.lookup .vibeLlm .asrLang = flash.lookup .vibeLlm .asrLang) :
    languageOf flash' = languageOf flash := by
  rw [languageOf, languageOf, h]

/-- A load depends on the two keys. -/
theorem loadLlm_of_keys {flash flash' : Flash} (hstored : LlmStored flash)
    (hkeys : Keys (flash.lookup .vibeLlm .settings) (flash.lookup .vibeLlm .asrLang) flash') :
    loadLlm flash' = loadLlm flash := by
  have hstored' : LlmStored flash' :=
    ⟨hkeys.1 ▸ hstored.settings, hkeys.2 ▸ hstored.language⟩
  rcases hstored.settings with hnone | ⟨record, hvalid, hsome⟩
  · rw [loadLlm_of_none hnone, loadLlm_of_none (hkeys.1.trans hnone)]
  · rw [loadLlm_of_some hstored hvalid hsome,
      loadLlm_of_some hstored' hvalid (hkeys.1.trans hsome), languageOf_of_lookup hkeys.2]

/-- **What has been saved is loaded.** -/
theorem loadLlm_of_both (hvalid : settings.Valid)
    (hkeys : Keys (some (.blob (storedLlm settings))) (some (.str settings.asrLanguage.bytes))
      flash) : loadLlm flash = .ok settings := by
  have hstored : LlmStored flash :=
    .of_keys hvalid hkeys (Or.inr ⟨_, hvalid.asrLanguage, rfl⟩)
  have hlanguage : languageOf flash = settings.asrLanguage := by
    rw [languageOf, hkeys.2]
    exact CString.ofBytes_bytes_self _
  rw [loadLlm_of_some hstored hvalid hkeys.1, hlanguage]

/-- **What a later load returns.** After any saves and clearings, with any failures, the record that
a load returns before one more save is valid. Whatever becomes of that save, a later load returns
this record, the new one, or the new one in the language that was stored before: it never fails,
and nothing else is mixed. After `ESP_OK` it returns the new record. -/
theorem loadLlm_after_save {calls : List (LlmCall × (ℕ → Fault))}
    (hcalls : ∀ call ∈ calls, NoTears call.2) {new : LlmSettings} (hnew : new.Valid)
    {faults : ℕ → Fault} (hfaults : NoTears faults) :
    ∃ old later : LlmSettings, loadLlm (afterLlmCalls .blank calls) = .ok old ∧ old.Valid ∧
      loadLlm (llmSettingsSave new (.booted (afterLlmCalls .blank calls) faults)).2.flash =
        .ok later ∧
      (later = old ∨ later = new ∨
        later = { new with asrLanguage := languageOf (afterLlmCalls .blank calls) }) ∧
      ((afterLlmCalls .blank calls).lookup .vibeLlm .settings ≠ none →
        languageOf (afterLlmCalls .blank calls) = old.asrLanguage) ∧
      ((llmSettingsSave new (.booted (afterLlmCalls .blank calls) faults)).1 = .ok () →
        later = new) := by
  have hstored := llmStored_afterLlmCalls hcalls llmStored_blank
  generalize afterLlmCalls .blank calls = flash at hstored ⊢
  obtain ⟨old, hload, hold, hlanguage⟩ := exists_loadLlm hstored
  have hsame : flash.lookup .vibeLlm .settings ≠ none → languageOf flash = old.asrLanguage :=
    fun h ↦ (hlanguage h).symm
  have hend := triple_llmSettingsSave hnew _ _ (.booted flash faults) ⟨hfaults, rfl, rfl⟩
  have hlater : LlmStored (llmSettingsSave new (.booted flash faults)).2.flash :=
    llmStored_save hfaults hstored
  rcases hrun : llmSettingsSave new (.booted flash faults) with ⟨error | done, b'⟩
  · rw [hrun] at hend hlater
    obtain ⟨-, hkeys | hkeys | hkeys⟩ := hend
    · exact ⟨old, old, hload, hold, (loadLlm_of_keys hstored hkeys).trans hload, Or.inl rfl, hsame,
        nofun⟩
    · -- the new blob beside the old language
      have hhalf := loadLlm_of_some hlater hnew hkeys.1
      rw [languageOf_of_lookup hkeys.2] at hhalf
      exact ⟨old, _, hload, hold, hhalf, Or.inr (Or.inr rfl), hsame, nofun⟩
    · exact ⟨old, new, hload, hold, loadLlm_of_both hnew hkeys, Or.inr (Or.inl rfl), hsame, nofun⟩
  · rw [hrun] at hend
    exact ⟨old, new, hload, hold, loadLlm_of_both hnew hend.2, Or.inr (Or.inl rfl), hsame,
      fun _ ↦ rfl⟩

/-! ### A save that stops half-way -/

/-- The defaults, in English. -/
def englishSettings : LlmSettings :=
  { LlmSettings.defaults with asrLanguage := .ofBytes (ascii ['e', 'n']) }

/-- The defaults with another model. -/
def otherModelSettings : LlmSettings :=
  { LlmSettings.defaults with chatModel := .ofBytes (ascii ['m', 'i', 'n', 'i']) }

/-- The power goes before the third operation. -/
def cutAtLanguage : ℕ → Fault := fun k ↦ if k = 2 then .cut else .none

/-- A save with no failures, and one whose power goes before its second write. -/
theorem loadLlm_after_save_cut : ∃ old later : LlmSettings,
    loadLlm (afterLlmCalls .blank [(.save englishSettings, fun _ ↦ .none)]) = .ok old ∧
      old.Valid ∧
      loadLlm (llmSettingsSave otherModelSettings (.booted
        (afterLlmCalls .blank [(.save englishSettings, fun _ ↦ .none)]) cutAtLanguage)).2.flash =
          .ok later := by
  have hcalls : ∀ call ∈ [(LlmCall.save englishSettings, fun _ : ℕ ↦ Fault.none)],
      NoTears call.2 := by
    rintro call hcall
    obtain rfl := List.mem_singleton.1 hcall
    exact fun _ ↦ nofun
  have hcut : NoTears cutAtLanguage := by
    intro k
    unfold cutAtLanguage
    split <;> exact nofun
  have hother : otherModelSettings.Valid := llmSettingsValid_iff.1 (by decide +kernel)
  obtain ⟨old, later, hload, hold, hlater, -⟩ := loadLlm_after_save hcalls hother hcut
  exact ⟨old, later, hload, hold, hlater⟩

/-- **The two records are mixed**: a load returns neither of them. -/
theorem loadLlm_mixes :
    loadLlm (afterLlmCalls .blank [(.save englishSettings, fun _ ↦ .none)]) =
        .ok englishSettings ∧
      loadLlm (llmSettingsSave otherModelSettings (.booted
        (afterLlmCalls .blank [(.save englishSettings, fun _ ↦ .none)]) cutAtLanguage)).2.flash =
          .ok { otherModelSettings with asrLanguage := englishSettings.asrLanguage } ∧
      ({ otherModelSettings with asrLanguage := englishSettings.asrLanguage } : LlmSettings) ≠
        englishSettings ∧
      ({ otherModelSettings with asrLanguage := englishSettings.asrLanguage } : LlmSettings) ≠
        otherModelSettings := by
  have henglish : englishSettings.Valid := llmSettingsValid_iff.1 (by decide +kernel)
  have hother : otherModelSettings.Valid := llmSettingsValid_iff.1 (by decide +kernel)
  have hfirst : Keys (some (.blob (storedLlm englishSettings)))
      (some (.str englishSettings.asrLanguage.bytes))
      (afterLlmCalls .blank [(.save englishSettings, fun _ ↦ .none)]) := by
    show Keys _ _ (llmSettingsSave englishSettings (.booted .blank fun _ ↦ .none)).2.flash
    rw [llmSettingsSave_of_valid henglish]
    exact ⟨rfl, rfl⟩
  refine ⟨loadLlm_of_both henglish hfirst, ?_, by decide +kernel, by decide +kernel⟩
  generalize afterLlmCalls .blank [(.save englishSettings, fun _ ↦ .none)] = flash at hfirst ⊢
  have hsecond : Keys (some (.blob (storedLlm otherModelSettings)))
      (some (.str englishSettings.asrLanguage.bytes))
      (llmSettingsSave otherModelSettings (.booted flash cutAtLanguage)).2.flash := by
    -- The power goes between the two keys.
    have hcut : (llmSettingsSave otherModelSettings (.booted flash cutAtLanguage)).2.flash =
        (flash.create .vibeLlm).put .vibeLlm .settings
          (.blob (storedLlm otherModelSettings)) := by
      rw [llmSettingsSave_of_valid hother]
      rfl
    rw [hcut]
    exact ⟨by rw [Flash.lookup_put, if_pos ⟨rfl, rfl⟩],
      by rw [Flash.lookup_put, if_neg (by decide), Flash.lookup_create, hfirst.2]⟩
  have hstored : LlmStored (llmSettingsSave otherModelSettings (.booted flash
      cutAtLanguage)).2.flash :=
    .of_keys hother hsecond (Or.inr ⟨_, henglish.asrLanguage, rfl⟩)
  have hlanguage : languageOf (llmSettingsSave otherModelSettings (.booted flash
      cutAtLanguage)).2.flash = englishSettings.asrLanguage := by
    rw [languageOf, hsecond.2]
    exact CString.ofBytes_bytes_self _
  rw [loadLlm_of_some hstored hother hsecond.1, hlanguage]

end

end VibeUsage
