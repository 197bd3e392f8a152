import VibeUsage.Cache.Window
import VibeUsage.Client.Provenance
import VibeUsage.Controller.Deadline

/-!
# What the screen shows has been received

End to end: in every run of turns and starts, with any failures of the server, the transport and the
storage, the totals of a snapshot are the totals of responses that the server has sent in full, one
for each day of the window that is marked as there (`shown_usage_received`).

The proof has two halves. `Client.Provenance` follows a body from the exchange to the slot of the
flash and back; here the rule of `Calls` carries its invariant over runs, and `Sourced.shows` reads
the totals off a cache of received days. Nothing is assumed of the server: that its numbers are
right cannot be seen from here.
-/

namespace VibeUsage

open Rfc8259 (Value IsJsonText)

/-! ### The calls -/

section Calls

open Prog (Moves Leads)

variable {bodies : Set (List UInt8)} {α : Type}

/-- A client that stands still keeps the invariant. -/
theorem sourcing_of_still {p : Vibe α} (hp : Moves Still p) :
    Leads (Sourcing bodies) p (Sourcing bodies) := sourcing_of_retells (retells_of_still hp)

/-- So does one that lasts. -/
theorem sourcing_of_lasting {p : Vibe α} (hp : Moves Lasting p) :
    Leads (Sourcing bodies) p (Sourcing bodies) := sourcing_of_still (still_of_lasting hp)

/-- A poll may link an account, over an empty cache. -/
theorem sourcing_vibePollDeviceCode (reply : Reply PollStatus) :
    Leads (Sourcing bodies) (vibePollDeviceCode reply) (Sourcing bodies) := by
  intro c h
  rw [vibePollDeviceCode, Prog.bind_of_ok (getVibe_apply c)]
  by_cases hinit : c.vibe.initialized = true
  · rw [Prog.check_of_pos hinit, Prog.bind_of_ok (Prog.pure_apply () c)]
    refine (Leads.of_triple (.bind (running_of_still (p := setVibe fun g ↦
      { g with lastRetryAfterSeconds := reply.retryAfterSeconds })
      (still_setVibe fun _ ↦ ⟨rfl, rfl⟩)) fun _ ↦ ?_) c ⟨h, hinit⟩).1
    cases reply.result with
    | error failure => exact running_of_still ((still_setError _ _).bind fun _ ↦ .fail _)
    | ok status =>
      have hnoted : Prog.Triple (Running bodies) (do
          setError none reply.httpStatus
          pure status : Vibe PollStatus) (fun _ ↦ Running bodies) fun _ ↦ Running bodies :=
        running_of_still ((still_setError _ _).bind fun _ ↦ .ret _)
      cases status with
      | success apiKey =>
        exact .bind (running_linkAccount apiKey) fun _ ↦ running_of_still (.ret _)
      | pending => exact hnoted
      | denied => exact hnoted
      | expired => exact hnoted
      | alreadyDelivered => exact hnoted
      | slowDown seconds => exact hnoted
  · rw [Prog.check_of_neg hinit]
    exact h

/-- **A factory reset**, as far as it comes. -/
theorem sourcing_intentFactoryReset :
    Leads (Sourcing bodies) intentFactoryReset (Sourcing bodies) := by
  have hkeep {β : Type} {p : Vibe β} (hp : Moves Retells p) :
      Prog.Triple (Sourcing bodies) p (fun _ ↦ Sourcing bodies) fun _ ↦ Sourcing bodies :=
    .of_leads (sourcing_of_retells hp)
  have hcancel : Moves Retells vibeCancel :=
    retells_of_still (still_setVibe fun _ ↦ ⟨rfl, rfl⟩)
  have hreset : Prog.Triple (Sourcing bodies) vibeFactoryReset (fun _ ↦ Sourcing bodies)
      fun _ ↦ Sourcing bodies := by
    refine .bind (hkeep (retells_of_still still_getVibe)) fun g ↦ .bind (hkeep (.check _)) fun _ ↦
      .bind (hkeep (retells_of_still (still_note fun _ _ _ h ↦ by cases h))) fun _ ↦
      .bind (hkeep hcancel) fun _ ↦
      .bind (hkeep (retells_stored loses_beginReset)) fun _ ↦
      .bind (hkeep (retells_stored loses_finishReset)) fun _ c h ↦ ?_
    exact ⟨⟨h.received, h.exchange⟩, h.slots, fun hinit ↦ absurd hinit Bool.false_ne_true⟩
  unfold intentFactoryReset vibeFactoryResetComplete
  exact .of_triple (.bind (hkeep hcancel) fun _ ↦ .bind hreset fun _ ↦
    .bind (hkeep (retells_stored loses_smartTodoClear)) fun _ ↦
    .bind (hkeep (retells_stored loses_llmSettingsClear)) fun _ ↦
    .bind (hkeep (retells_stored loses_clearCredentials)) fun _ ↦
    hkeep (retells_stored loses_completeReset))

/-- **Every call of the controller** keeps the invariant. -/
theorem callsKeep_sourcing : CallsKeep (Sourcing bodies) where
  reading := sourcing_of_lasting lasting_timeNow
  snapshot window := sourcing_of_lasting (lasting_vibeSnapshot window)
  cancel := sourcing_of_still (still_setVibe fun _ ↦ ⟨rfl, rfl⟩)
  remaining := sourcing_of_lasting lasting_vibeRetryRemainingSeconds
  code reply := sourcing_of_lasting (lasting_vibeRequestDeviceCode reply)
  poll reply := sourcing_vibePollDeviceCode reply
  pass includeToday := sourcing_vibeBeginReconcile includeToday
  today c h _ _ :=
    sourcing_vibeFetchToday _ (sourcing_of_lasting lasting_vibeRetryRemainingSeconds c h)
  day c h _ _ :=
    sourcing_vibeReconcile _ (sourcing_of_lasting lasting_vibeRetryRemainingSeconds c h)
  unlink := sourcing_vibeUnlink
  save config := sourcing_of_retells (retells_stored (loses_of_within
    (moves_deviceConfigSave config (by decide))))
  init c h := sourcing_vibeInit c.vibeConfig h
  reset := sourcing_intentFactoryReset

/-- **Every start** does. -/
theorem startsKeep_sourcing : StartsKeep (Sourcing bodies) (Offline bodies) where
  power c boot h := ⟨⟨⟨h.received, fun _ herror ↦ by cases herror⟩, h.slots,
    fun hinit ↦ absurd hinit Bool.false_ne_true⟩, rfl⟩
  weaken _ h := h.sourcing
  pending := offline_of_retells (retells_stored (loses_of_within moves_resetPending))
  resume := offline_resumeLocal
  init c h := sourcing_vibeInit c.vibeConfig h.sourcing
  clearWifi := sourcing_of_retells (retells_stored loses_clearCredentials)
  clearTodo := sourcing_of_retells (retells_stored loses_smartTodoClear)
  clearLlm := sourcing_of_retells (retells_stored loses_llmSettingsClear)
  complete := sourcing_of_retells (retells_stored loses_completeReset)

end Calls

/-! ### The bodies of a run -/

/-- The bodies that the turns have brought in full. -/
def receivedBodies (happenings : List Happening) : Set (List UInt8) :=
  {body | ∃ turn, .turn turn ∈ happenings ∧ turn.exchange.status = 200 ∧
    turn.exchange.error = none ∧ turn.exchange.pieces.flatten = body}

/-- A device before its first start, without a cache in the flash and without a past. -/
structure Fresh (c : Controller) : Prop where
  off : c.client.vibe.initialized = false
  slots : ∀ key, slotCache c.client.board.flash key = none
  exchange : c.client.exchange.error ≠ none
  history : c.client.history = []

/-- **Every run** from a device without a cache. -/
theorem sourcing_afterAll {c : Controller} (h : Fresh c) (happenings : List Happening) :
    Sourcing (receivedBodies happenings) (afterAll c happenings).client := by
  have hstart : OfClient (Sourcing (receivedBodies happenings)) c := by
    refine ⟨⟨fun dateKey timezone body hbody ↦ ?_, fun _ herror ↦ absurd herror h.exchange⟩,
      fun key cache hcache ↦ ?_, fun hinit ↦ absurd (h.off.symm.trans hinit) Bool.false_ne_true⟩
    · rw [h.history] at hbody
      cases hbody
    · rw [h.slots key] at hcache
      cases hcache
  exact holds_afterAll (I := Sourcing (receivedBodies happenings)) callsKeep_sourcing
    startsKeep_sourcing (fun turn hturn c hc ↦ ⟨⟨hc.received,
      fun hstatus herror ↦ ⟨turn, hturn, hstatus, herror, rfl⟩⟩, hc.slots, hc.context⟩) hstart

/-! ### What a snapshot shows -/

/-- A body came for a request for this date in this timezone. It is the text of a response for them,
and its buckets have this many tokens. -/
def Reported (history : List Contact) (timezone : Timezone) (date : Int32) (tokens : ℕ) : Prop :=
  ∃ body, .received date timezone body ∈ history ∧
    ∃ (maxBuckets : UInt32) (v : Value) (bs : List Bucket) (hasAnyData : Bool),
      IsJsonText v body ∧ IsResponse KeptNulFree ⟨date, timezone, maxBuckets⟩ v bs hasAnyData ∧
        (bs.map fun b ↦ b.totalTokens.toNat).sum = tokens

/-- Each day that the snapshot marks as there has been reported; the totals are those of the days
that are there. -/
structure ShowsReported (history : List Contact) (timezone : Timezone)
    (snapshot : UsageSnapshot) (tokens : ℕ → ℕ) : Prop where
  /-- The day of each bit of the mask. -/
  day : ∀ age, snapshot.validDaysMask.toNat.testBit age = true →
    ∃ date, vibeDateIsValid date = true ∧ serial date = serial snapshot.todayKey - age ∧
      Reported history timezone date (tokens age)
  missing : ∀ age, snapshot.validDaysMask.toNat.testBit age = false → tokens age = 0
  today : snapshot.todayTokens.toNat = tokens 0
  week : snapshot.sevenDayTokens.toNat = ∑ age ∈ Finset.range 7, tokens age

/-- The tokens of a candidate are those of the buckets. -/
theorem Received.reported {history : List Contact} {timezone : Timezone}
    {candidate : DayCandidate} (h : Received history timezone candidate) :
    Reported history timezone candidate.dateKey candidate.totalTokens.toNat := by
  obtain ⟨body, hbody, maxBuckets, limit, hvalid, hfits, haccepts, hcandidate⟩ := h
  obtain ⟨v, bs, hasAnyData, htext, -, hresponse, hcounts⟩ := accepts_spec hvalid hfits haccepts
  refine ⟨body, hbody, maxBuckets, v, bs, hasAnyData, htext, hresponse, ?_⟩
  rw [← hcandidate] at hcounts
  rw [hcounts.tallies.total, List.map_map]
  rfl

section Snapshot

variable {history : List Contact} {cache : VibeCache} {today : Int32}

/-- The tokens of the days of an age. -/
def tokensOfAge (cache : VibeCache) (today : Int32) (age : ℕ) : ℕ :=
  ∑ day ∈ (windowDays cache today 7).filter fun day ↦
    cache.days[day].age today = (age : ℤ), cache.days[day].totalTokens.toNat

/-- A day of the window is the only one of its age, since no other has its date. -/
theorem windowDays_filter_age (hcache : cache.Valid) {day : Fin cacheDays} {age : ℕ}
    (hday : day ∈ windowDays cache today 7) (hage : cache.days[day].age today = age) :
    (windowDays cache today 7).filter (fun day ↦ cache.days[day].age today = (age : ℤ)) =
      {day} := by
  have hvalid := (mem_windowDays.1 hday).1
  ext other
  rw [Finset.mem_filter, Finset.mem_singleton]
  constructor
  · rintro ⟨hother, hage'⟩
    have hvalid' := (mem_windowDays.1 hother).1
    refine hcache.day_injective day other hvalid hvalid' ?_
    refine serial_injective (hcache.day_date other hvalid') (hcache.day_date day hvalid) ?_
    unfold DailySlot.age at hage hage'
    omega
  · rintro rfl
    exact ⟨hday, hage⟩

/-- Today's tokens are those of the days of age zero. -/
theorem totalSum_today : totalSum cache today (min 7 1) = tokensOfAge cache today 0 := by
  unfold totalSum windowSum tokensOfAge
  refine Finset.sum_congr (Finset.ext fun day ↦ ?_) fun _ _ ↦ rfl
  rw [Finset.mem_filter, mem_windowDays, mem_windowDays]
  push_cast
  constructor
  · rintro ⟨hvalid, hpos, hlt⟩
    exact ⟨⟨hvalid, hpos, by omega⟩, by omega⟩
  · rintro ⟨⟨hvalid, hpos, -⟩, hage⟩
    exact ⟨hvalid, hpos, by omega⟩

/-- The tokens of the week are summed age by age. -/
theorem totalSum_week :
    totalSum cache today 7 = ∑ age ∈ Finset.range 7, tokensOfAge cache today age := by
  unfold totalSum windowSum tokensOfAge
  have hages : ∀ day ∈ windowDays cache today 7,
      (cache.days[day].age today).toNat ∈ Finset.range 7 := by
    intro day hday
    obtain ⟨-, hpos, hlt⟩ := mem_windowDays.1 hday
    rw [Finset.mem_range]
    omega
  rw [← Finset.sum_fiberwise_of_maps_to hages]
  refine Finset.sum_congr rfl fun age _ ↦ Finset.sum_congr (Finset.filter_congr ?_) fun _ _ ↦ rfl
  intro day hday
  obtain ⟨-, hpos, -⟩ := mem_windowDays.1 hday
  omega

/-- What is gathered from a cache of received days. -/
theorem Sourced.shows (h : Sourced history cache) {g : Gathered}
    (hgather : gatherDays cache today (List.range 7) .zero = .ok g)
    {snapshot : UsageSnapshot} (hkey : snapshot.todayKey = today)
    (hmask : snapshot.validDaysMask = g.validDaysMask)
    (htodayTokens : snapshot.todayTokens = g.todayTokens)
    (hweek : snapshot.sevenDayTokens = g.sevenDayTokens) :
    ShowsReported history cache.timezone snapshot (tokensOfAge cache.content today) := by
  obtain ⟨latest, _, hmap, hlatest⟩ := h
  have hcache : cache.content.Valid := hmap.valid
  have hg : Gathers cache.content today 7 g := by
    have hcontent : gatherDays cache.content today (List.range' 0 7) .zero = .ok g := by
      rw [← List.range_eq_range']
      exact hgather
    exact gathers_of_gatherDays (n := 0) hcache (by omega) gathers_zero hcontent
  refine ⟨fun age hage ↦ ?_, fun age hage ↦ ?_, ?_, ?_⟩
  · rw [hmask, hg.mask] at hage
    obtain ⟨day, hday, hage⟩ := hage
    have hvalid := (mem_windowDays.1 hday).1
    refine ⟨cache.content.days[day].dateKey, hcache.day_date day hvalid, ?_, ?_⟩
    · rw [hkey]
      unfold DailySlot.age at hage
      omega
    -- A day that is shown is in a slot, which holds the latest candidate of its date.
    obtain ⟨candidate, hcandidate, hholds⟩ := hmap.day day hvalid
    have hreported := (hlatest _ candidate hcandidate).reported
    unfold tokensOfAge
    rw [windowDays_filter_age hcache hday hage, Finset.sum_singleton]
    rw [← hholds.dateKey, ← hholds.totalTokens] at hreported
    exact hreported
  · rw [hmask] at hage
    refine Finset.sum_eq_zero fun day hday ↦ ?_
    rw [Finset.mem_filter] at hday
    have hset := (hg.mask age).2 ⟨day, hday⟩
    rw [hage] at hset
    cases hset
  · rw [htodayTokens, hg.todayTokens, totalSum_today]
  · rw [hweek, hg.seven, totalSum_week]

/-- What a snapshot says of the days is what has been gathered of them. -/
theorem gathered_of_snapshot {window : Window} {snapshot : UsageSnapshot}
    (h : vibeCacheBuildSnapshot cache today window = .ok snapshot) :
    ∃ g, gatherDays cache today (List.range 7) .zero = .ok g ∧ snapshot.todayKey = today ∧
      snapshot.validDaysMask = g.validDaysMask ∧ snapshot.todayTokens = g.todayTokens ∧
      snapshot.sevenDayTokens = g.sevenDayTokens := by
  unfold vibeCacheBuildSnapshot at h
  split at h
  · cases h
  split at h
  · cases h
  rename_i g hgather
  dsimp only at h
  split at h
  · cases h
  · cases h
    exact ⟨g, hgather, rfl, rfl, rfl, rfl⟩

/-- A snapshot that is returned has been built of the cache. -/
theorem snapshot_of_vibeSnapshot {window : Window} {c d : Client} {snapshot : UsageSnapshot}
    (h : vibeSnapshot window c = (.ok snapshot, d)) :
    c.vibe.initialized = true ∧
      ∃ today, vibeCacheBuildSnapshot c.vibe.cache today window = .ok snapshot := by
  rw [vibeSnapshot, Prog.bind_of_ok (getVibe_apply c)] at h
  by_cases hinit : c.vibe.initialized = true
  · rw [Prog.check_of_pos hinit, Prog.bind_of_ok (Prog.pure_apply () c)] at h
    obtain ⟨today, e, -, h⟩ := Prog.bind_eq_ok.1 h
    cases hbuild : vibeCacheBuildSnapshot c.vibe.cache today window with
    | error error =>
      rw [hbuild] at h
      cases (Prod.mk.inj h).1
    | ok built =>
      rw [hbuild] at h
      cases (Prod.mk.inj h).1
      exact ⟨hinit, today, hbuild⟩
  · rw [Prog.check_of_neg hinit] at h
    cases (Prod.mk.inj h).1

end Snapshot

/-- **What is shown has been received**: in every run of turns and starts, each day that a snapshot
counts is that of a response which the server has sent in full to a request for that day in the
timezone of the client, and every body in the history is one that a turn of the run has brought. -/
theorem shown_usage_received {c : Controller} (h : Fresh c) (happenings : List Happening)
    (window : Window) {snapshot : UsageSnapshot} {d : Client}
    (hshown : vibeSnapshot window (afterAll c happenings).client = (.ok snapshot, d)) :
    (∃ tokens, ShowsReported (afterAll c happenings).client.history
      (afterAll c happenings).client.vibe.timezone snapshot tokens) ∧
    ∀ dateKey timezone body,
      .received dateKey timezone body ∈ (afterAll c happenings).client.history →
      body ∈ receivedBodies happenings := by
  obtain ⟨hinit, today, hbuild⟩ := snapshot_of_vibeSnapshot hshown
  obtain ⟨g, hgather, hkey, hmask, htoday, hweek⟩ := gathered_of_snapshot hbuild
  have hsourcing := sourcing_afterAll h happenings
  have hprovided := hsourcing.context hinit
  refine ⟨?_, hsourcing.received⟩
  rw [← hprovided.same]
  exact ⟨_, hprovided.cache.shows hgather hkey hmask htoday hweek⟩

/-- A device that holds a credential, with a flash that wears out before the day is written. -/
def wornDevice : Controller := { linkedDevice with
  client := { sampleClient with
    board := { sampleClient.board with faults := fun k ↦ if k < 14 then .none else .fails } } }

/-- It is started, and receives a day with 42 tokens. -/
def wornRun : List Happening :=
  .boot sampleBoot :: requestTurns { Exchange.silent with
    pieces := codexPieces
    error := none
    status := 200 }

/-- The 42 tokens are shown, and come from the body that was asked for that day. -/
theorem shown_usage_received_sample : ∃ snapshot,
    (vibeSnapshot .today (afterAll wornDevice wornRun).client).1 = .ok snapshot ∧
      snapshot.todayComplete = true ∧ snapshot.todayTokens = 42 ∧
      (∃ tokens, ShowsReported (afterAll wornDevice wornRun).client.history
        (afterAll wornDevice wornRun).client.vibe.timezone snapshot tokens) ∧
      ∀ dateKey timezone body,
        .received dateKey timezone body ∈ (afterAll wornDevice wornRun).client.history →
        body ∈ receivedBodies wornRun := by
  have hok : ((vibeSnapshot .today (afterAll wornDevice wornRun).client).1.map
      fun snapshot ↦ (snapshot.todayComplete, snapshot.todayTokens)).toOption =
        some (true, 42) := by decide +kernel
  rcases hrun : vibeSnapshot .today (afterAll wornDevice wornRun).client with ⟨error | snapshot, d⟩
  · rw [hrun] at hok
    cases hok
  · rw [hrun] at hok
    obtain ⟨hcomplete, htokens⟩ := Prod.mk.inj (Option.some.inj hok)
    exact ⟨snapshot, rfl, hcomplete, htokens,
      shown_usage_received ⟨rfl, fun _ ↦ rfl, by decide, rfl⟩ wornRun .today hrun⟩

end VibeUsage
