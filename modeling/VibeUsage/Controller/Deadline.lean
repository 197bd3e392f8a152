import VibeUsage.Client.Start
import VibeUsage.Controller.Calls

/-!
# The retry deadline, over whole runs

On a storage that works and a wall clock that does not go backwards, no run of turns and starts asks
the server for usage before a time that the server has named, unless the account has been given up
since (`retry_deadline_kept`). A refresh by hand, a pass over the last days, a change of the
timezone and a power cut are turns and starts like any other. A later and shorter delay does not
shorten the first one, since every time that was named is waited for.

What the calls keep is proved in `Client.Deadline`; here only the factory reset is new, which
forgets every time together with the account. `retry_deadline_kept` is the rule of `Calls`, applied
to `Withheld`.
-/

namespace VibeUsage

/-! ### The calls -/

/-- A mild call keeps every time withheld. -/
theorem leads_of_mild {α : Type} {p : Vibe α} (hp : Prog.Moves Mild p) :
    Prog.Leads (Waits Client.Withheld) p (Waits Client.Withheld) :=
  .of_moves hp fun _ _ hmild h ↦ withheld_of_mild h hmild

/-- A device code is asked for without a word to the storage. -/
theorem lasting_vibeRequestDeviceCode (reply : Reply (CString × UInt32 × UInt32)) :
    Prog.Moves Lasting (vibeRequestDeviceCode reply) := by
  refine lasting_getVibe.bind fun _ ↦ (Prog.Moves.check _).bind fun _ ↦
    .bind (lasting_setVibe fun _ ↦ rfl) fun _ ↦ ?_
  cases reply.result with
  | error failure => exact (lasting_setError _ _).bind fun _ ↦ .fail _
  | ok code => exact (lasting_setError _ _).bind fun _ ↦ .ret _

/-- A poll is no request of usage. -/
theorem mild_vibePollDeviceCode (reply : Reply PollStatus) :
    Prog.Moves Mild (vibePollDeviceCode reply) := by
  refine mild_getVibe.bind fun _ ↦ (Prog.Moves.check _).bind fun _ ↦
    .bind (mild_setVibe fun _ ↦ ⟨rfl, rfl⟩) fun _ ↦ ?_
  cases reply.result with
  | error failure => exact (mild_setError _ _).bind fun _ ↦ .fail _
  | ok status =>
    cases status with
    | success apiKey => exact (mild_linkAccount apiKey).bind fun _ ↦ .ret _
    | pending => exact (mild_setError _ _).bind fun _ ↦ .ret _
    | denied => exact (mild_setError _ _).bind fun _ ↦ .ret _
    | expired => exact (mild_setError _ _).bind fun _ ↦ .ret _
    | alreadyDelivered => exact (mild_setError _ _).bind fun _ ↦ .ret _
    | slowDown seconds => exact (mild_setError _ _).bind fun _ ↦ .ret _

/-- A client whose clock, flash and history are the same, and whose context keeps as much. -/
theorem Waits.of_same {c c' : Client} (h : Waits Client.Withheld c) (hworking : Working c'.board)
    (hflash : c'.board.flash = c.board.flash) (hclock : c'.clock = c.clock)
    (hreadings : c'.readings = c.readings) (hhistory : c'.history = c.history)
    (hvibe : c'.vibe = c.vibe ∨ c'.vibe.initialized = false) : Waits Client.Withheld c' := by
  have hreading : c'.lastReading = c.lastReading := by
    unfold Client.lastReading
    rw [hclock, hreadings]
  refine ⟨hworking, by rw [hclock]; exact h.clock, fun hinit ↦ ?_, by rw [hhistory]; exact h.obeyed,
    fun time htime ↦ ?_⟩
  · rcases hvibe with hvibe | hoff
    · rw [hvibe, hflash]
      exact h.retry (hvibe ▸ hinit)
    · rw [hoff] at hinit
      cases hinit
  · rw [hhistory] at htime
    obtain ⟨hpos, hpast | hend | hkeeps⟩ := h.told time htime
    · exact ⟨hpos, .inl (by rw [Client.Past, hreading]; exact hpast)⟩
    · exact ⟨hpos, .inr (.inl (by rw [Client.EndOfTime, hreading]; exact hend))⟩
    · refine ⟨hpos, .inr (.inr ⟨by rw [hflash]; exact hkeeps.flash, fun hinit ↦ ?_⟩)⟩
      rcases hvibe with hvibe | hoff
      · rw [hvibe]
        exact hkeeps.context (hvibe ▸ hinit)
      · rw [hoff] at hinit
        cases hinit

/-- **A factory reset** that runs forgets every time; one that does not run changes nothing. -/
theorem withheld_intentFactoryReset :
    Prog.Leads (Waits Client.Withheld) intentFactoryReset (Waits Client.Withheld) := by
  have hrest : Prog.Triple Cleared (do
      stored smartTodoClear
      stored llmSettingsClear
      stored wifiAdapterClearCredentials
      vibeFactoryResetComplete : Vibe Unit) (fun _ ↦ Cleared) fun _ ↦ Cleared :=
    .bind (cleared_stored (moves_smartTodoClear fun _ ↦ trivial))
      fun _ ↦ .bind (cleared_stored
        (moves_llmSettingsClear trivial trivial)) fun _ ↦
      .bind (cleared_stored (moves_clearCredentials (fun _ ↦ trivial)
        fun _ ↦ trivial)) fun _ ↦
      cleared_stored (moves_completeReset trivial)
  intro c h
  have hd : Waits Client.Withheld (vibeCancel c).2 := withheld_of_mild h (mild_vibeCancel c)
  rw [intentFactoryReset, Prog.bind_of_ok (show vibeCancel c = (.ok (), (vibeCancel c).2) from rfl)]
  generalize (vibeCancel c).2 = d at hd
  cases hinit : d.vibe.initialized with
  | false =>
    rw [Prog.bind_of_error (vibeFactoryReset_of_not_initialized hinit)]
    exact hd
  | true =>
    rw [Prog.bind_of_ok (vibeFactoryReset_does hinit hd.working.powered fun _ _ ↦
      hd.working.faults _)]
    have hcleared : Cleared { d with
        vibe := .zero
        history := .forgotten :: d.history
        board := { d.board with
          flash := eraseLocal ((d.board.flash.create .vibeMeta).put .vibeMeta .reset (.u8 1))
          tick := d.board.tick + factoryResetOperations } } :=
      ⟨⟨⟨hd.working.powered, hd.working.faults⟩, hd.clock,
        fun hon ↦ absurd hon Bool.false_ne_true, hd.obeyed, fun time htime ↦ by cases htime⟩, rfl⟩
    exact (Prog.Leads.of_triple hrest _ hcleared).withheld

/-- **Every call of the controller** keeps every time withheld. -/
theorem callsKeep_withheld : CallsKeep (Waits Client.Withheld) where
  reading := leads_of_mild mild_timeNow
  snapshot window := leads_of_mild (mild_of_lasting (lasting_vibeSnapshot window))
  cancel := leads_of_mild mild_vibeCancel
  remaining := leads_of_mild (mild_of_lasting lasting_vibeRetryRemainingSeconds)
  code reply := leads_of_mild (mild_of_lasting (lasting_vibeRequestDeviceCode reply))
  poll reply := leads_of_mild (mild_vibePollDeviceCode reply)
  pass includeToday := leads_of_mild (mild_vibeBeginReconcile includeToday)
  today _ h _ hnow :=
    Prog.Leads.of_triple withheld_vibeFetchToday _ (admitted_vibeRetryRemainingSeconds h hnow)
  day _ h _ hnow :=
    Prog.Leads.of_triple withheld_vibeReconcile _ (admitted_vibeRetryRemainingSeconds h hnow)
  unlink := .of_triple withheld_vibeUnlink
  save config :=
    leads_of_mild (mild_stored (moves_deviceConfigSave config (notRetry_of_ne (by decide))))
  init c h := Prog.Leads.of_triple (withheld_vibeInit c.vibeConfig) c.client h
  reset := withheld_intentFactoryReset

/-! ### The starts -/

/-- The invariant before the context is there. -/
structure WithheldOff (c : Client) : Prop where
  withheld : Waits Client.Withheld c
  off : c.vibe = .zero

/-- The local half of a reset forgets every time. -/
theorem withheldOff_resume :
    Prog.Leads WithheldOff vibeFactoryResetResumeLocal WithheldOff := by
  have hclear : Prog.Triple (fun c ↦ Cleared c ∧ c.vibe = .zero) (do
      stored vibeStoreBeginReset
      stored vibeStoreFinishReset : Vibe Unit) (fun _ c ↦ Cleared c ∧ c.vibe = .zero)
      fun _ c ↦ Cleared c ∧ c.vibe = .zero := by
    have hkeep {p : Nvs Unit} (hp : Prog.Moves (Within fun _ _ ↦ True) p) :
        Prog.Triple (fun c ↦ Cleared c ∧ c.vibe = .zero) (stored p)
          (fun _ c ↦ Cleared c ∧ c.vibe = .zero) fun _ c ↦ Cleared c ∧ c.vibe = .zero := by
      refine .of_leads fun c hc ↦ ⟨Prog.Leads.of_triple (cleared_stored hp) c hc.1, hc.2⟩
    exact .bind (hkeep (moves_beginReset trivial)) fun _ ↦ hkeep
      (moves_finishReset (fun _ ↦ trivial) (fun _ ↦ trivial) (fun _ ↦ trivial) trivial)
  intro c h
  have hforgot : Cleared { c with history := .forgotten :: c.history } :=
    ⟨⟨h.withheld.working, h.withheld.clock, h.withheld.retry, h.withheld.obeyed,
      fun time htime ↦ by cases htime⟩, by rw [h.off]; rfl⟩
  obtain ⟨hcleared, hoff⟩ := Prog.Leads.of_triple hclear _ ⟨hforgot, h.off⟩
  exact ⟨hcleared.withheld, hoff⟩

/-- **Every start** does. -/
theorem startsKeep_withheld : StartsKeep (Waits Client.Withheld) WithheldOff where
  power c boot h := ⟨h.of_same ⟨rfl, h.working.faults⟩ rfl rfl rfl rfl (.inr rfl), rfl⟩
  weaken _ h := h.withheld
  pending c h := ⟨withheld_of_mild h.withheld (mild_stored moves_resetPending c), h.off⟩
  resume := withheldOff_resume
  init c h := Prog.Leads.of_triple (withheld_vibeInit c.vibeConfig) c.client h.withheld
  clearWifi := leads_of_mild (mild_stored (moves_clearCredentials
    (fun _ ↦ notRetry_of_ne (by decide)) fun _ ↦ notRetry_of_ne (by decide)))
  clearTodo := leads_of_mild (mild_stored (moves_smartTodoClear fun _ ↦ notRetry_of_ne (by decide)))
  clearLlm := leads_of_mild (mild_stored (moves_llmSettingsClear (notRetry_of_ne (by decide))
    (notRetry_of_ne (by decide))))
  complete := leads_of_mild (mild_stored (moves_completeReset fun h ↦ absurd h.2 (by decide)))

/-! ### Whole runs -/

/-- What held of the whole history holds of its beginning. -/
theorem WaitsObeyed.of_append {later earlier : List Contact}
    (h : WaitsObeyed (later ++ earlier)) : WaitsObeyed earlier := by
  induction later with
  | nil => exact h
  | cons contact later ih =>
    refine ih ?_
    cases contact with
    | requested at_ => exact h.2
    | received dateKey timezone body => exact h
    | toldToWait until_ => exact h
    | forgotten => exact h

/-- A time is waited for as long as the account has not been given up. -/
theorem mem_waits {middle earlier : List Contact} {until_ : ℤ} (h : .forgotten ∉ middle) :
    until_ ∈ waits (middle ++ .toldToWait until_ :: earlier) := by
  induction middle with
  | nil => exact List.mem_cons_self
  | cons contact middle ih =>
    have hrest := ih fun hmem ↦ h (List.mem_cons_of_mem _ hmem)
    cases contact with
    | requested at_ => exact hrest
    | received dateKey timezone body => exact hrest
    | toldToWait other => exact List.mem_cons_of_mem _ hrest
    | forgotten => exact absurd List.mem_cons_self h

/-- No request was made before a time that the server had named, unless the account had been given
up in between. -/
def DeadlinesKept (history : List Contact) : Prop :=
  ∀ later middle earlier at_ until_,
    history = later ++ .requested at_ :: (middle ++ .toldToWait until_ :: earlier) →
    .forgotten ∉ middle → until_ ≤ at_.toInt

/-- The history, as the property reads it. -/
theorem WaitsObeyed.deadlinesKept {history : List Contact} (h : WaitsObeyed history) :
    DeadlinesKept history := by
  rintro later middle earlier at_ until_ rfl hkept
  exact h.of_append.1 until_ (mem_waits hkept)

/-- **The server's retry deadline is kept** by every run of turns and starts of a device whose
storage works and whose wall clock does not go backwards. -/
theorem retry_deadline_kept {c : Controller} (hworks : Working c.client.board)
    (hclock : ∀ i j, i ≤ j → (c.client.clock i).toInt ≤ (c.client.clock j).toInt)
    (hoff : c.client.vibe.initialized = false) (hstart : c.client.history = [])
    (happenings : List Happening) : DeadlinesKept (afterAll c happenings).client.history := by
  have hbefore : OfClient (Waits Client.Withheld) c := by
    refine ⟨hworks, hclock, fun hinit ↦ absurd (hoff.symm.trans hinit)
      Bool.false_ne_true, ?_, ?_⟩
    · rw [hstart]
      trivial
    · rw [hstart]
      exact fun time htime ↦ by cases htime
  have hafter : OfClient (Waits Client.Withheld) (afterAll c happenings) :=
    holds_afterAll callsKeep_withheld startsKeep_withheld (fun _ _ _ hc ↦
      Waits.of_same hc hc.working rfl rfl rfl rfl (.inl rfl)) hbefore
  exact (Waits.obeyed hafter).deadlinesKept

/-- A start with the default settings. -/
def sampleBoot : BootInput where
  settings := ⟨1, 900, .asiaShanghai, .ofBytes (ascii ['d', 'e', 's', 'k'])⟩
  bootstrapOrigin := .ofBytes (httpsScheme ++ ascii ['a', 'p', 'i'])
  clientName := .ofBytes (ascii ['d', 'e', 's', 'k'])
  productPrefix := .ofBytes (ascii ['V'])
  hostname := .ofBytes (ascii ['d', 'e', 's', 'k'])
  resources := true
  audio := none
  wifiInit := none
  wifiHasCredentials := true
  mono := fun n ↦ n

/-- A device that holds a credential. -/
def linkedDevice : Controller := { Controller.zero with client := sampleClient }

/-- The network is there, and the user asks for a request, which is answered so. -/
def requestTurns (exchange : Exchange) : List Happening :=
  [.turn { Turn.silent with command := some (.wifiEvent .gotIp) },
    .turn { Turn.silent with command := some (.intent .refresh), exchange }]

/-- Its clock has gone on by 100 seconds when it is read for the twentieth time. -/
def patientDevice : Controller := { linkedDevice with
  client := { sampleClient with clock := fun n ↦ if n < 20 then 1784073600 else 1784073700 } }

/-- The clock of the sample does not go backwards. -/
theorem patientDevice_clock (i j : ℕ) (h : i ≤ j) :
    (patientDevice.client.clock i).toInt ≤ (patientDevice.client.clock j).toInt := by
  unfold patientDevice
  dsimp only
  by_cases hj : j < 20
  · rw [if_pos hj, if_pos (h.trans_lt hj)]
  · rw [if_neg hj]
    split
    · decide
    · exact le_rfl

/-- It is told to wait for a minute, started again, and asked for more twice. -/
def patientRun : List Happening :=
  .boot sampleBoot :: requestTurns { Exchange.silent with
      error := none
      status := 429
      retryAfterSeconds := 60 } ++
    .boot sampleBoot :: (requestTurns .silent ++ requestTurns .silent)

/-- The request before the deadline is withheld, the one after it is made. -/
theorem retry_deadline_kept_sample :
    (afterAll patientDevice patientRun).client.history =
      [.requested 1784073700, .toldToWait 1784073660, .requested 1784073600] ∧
    DeadlinesKept (afterAll patientDevice patientRun).client.history :=
  ⟨by decide +kernel,
    retry_deadline_kept ⟨rfl, fun _ ↦ rfl⟩ patientDevice_clock rfl rfl patientRun⟩

end VibeUsage
