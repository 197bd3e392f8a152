import VibeUsage.Client.Advance
import VibeUsage.Parser.Language

/-!
# A fetch is a transaction

However the server answers, in whatever pieces the body comes, wherever the transport breaks and
whatever other tasks do meanwhile, `fetch_day` ends in one of three ways (`fetchDay_transaction`):
with an error and the cache as it was; with the account unlinked, after a 401; or with the requested
day stored, as the parser reads it in the complete body.

`DayStored` says which day is stored and from which body, `NothingStored` what the two other ends
leave. A body in pieces counts as the body in one (`accepts_of_pieces`), so the day does not depend
on how the transport cut it.
-/

namespace VibeUsage

/-! ### A body in pieces -/

/-- Pieces that are accepted were all counted. -/
theorem feedPieces_fits (pieces : List (List UInt8)) :
    ∀ parser : Parser, parser.bodyBytes ≤ parser.maxBodyBytes →
      (feedPieces parser pieces).error = none →
      parser.error = none ∧ parser.bodyBytes + pieces.flatten.length ≤ parser.maxBodyBytes := by
  induction pieces with
  | nil => exact fun parser hle herr ↦ ⟨herr, hle⟩
  | cons piece pieces ih =>
    intro parser hle herr
    -- The first error stays, so there was none before.
    have hstart : parser.error = none := by
      by_contra hne
      obtain ⟨error, herror⟩ := Option.ne_none_iff_exists'.1 hne
      rw [feedPieces_of_error herror, herror] at herr
      cases herr
    have hfed : (vibeUsageParserFeed parser piece).error = none := by
      by_contra hne
      obtain ⟨error, herror⟩ := Option.ne_none_iff_exists'.1 hne
      rw [feedPieces, if_pos (by rw [herror]; rfl), herror] at herr
      cases herr
    have hfits : parser.bodyBytes + piece.length ≤ parser.maxBodyBytes := by
      by_contra hlong
      rw [vibeUsageParserFeed, if_neg (by simp [hstart]), if_pos (by omega)] at hfed
      cases hfed
    have hran := feed_spec hstart hfits
    rcases hrun : piece.foldlM Machine.consume parser.machine with error | machine
    · rw [hrun] at hran
      rw [show (vibeUsageParserFeed parser piece).error = some error from hran] at hfed
      cases hfed
    · rw [hrun] at hran
      have hnext : vibeUsageParserFeed parser piece =
          { parser with bodyBytes := parser.bodyBytes + piece.length, machine } := hran
      rw [feedPieces, if_neg (by rw [hfed]; exact Bool.false_ne_true)] at herr
      have hrest := (ih (vibeUsageParserFeed parser piece) (by rw [hnext]; exact hfits) herr).2
      rw [hnext] at hrest
      rw [List.flatten_cons, List.length_append, ← Nat.add_assoc]
      exact ⟨hstart, hrest⟩

/-- **A body that is accepted in pieces** is accepted as a whole, with the same candidate. -/
theorem accepts_of_pieces {request : Request} {limit : ℕ} (h : ValidRequest request limit)
    {pieces : List (List UInt8)}
    (hok : (vibeUsageParserFinish (feedPieces (parserFor request limit) pieces)).error = none) :
    pieces.flatten.length ≤ limit ∧ Accepts request limit pieces.flatten ∧
      (vibeUsageParserFinish (feedPieces (parserFor request limit) pieces)).candidate =
        (parseBody request limit pieces.flatten).candidate := by
  have hparser := parserFor_eq h
  have hfed : (feedPieces (parserFor request limit) pieces).error = none := by
    by_contra hne
    obtain ⟨error, herror⟩ := Option.ne_none_iff_exists'.1 hne
    rw [vibeUsageParserFinish, if_pos (by rw [herror]; rfl), herror] at hok
    cases hok
  obtain ⟨hstart, hfits⟩ := feedPieces_fits pieces (parserFor request limit)
    (by rw [hparser]; exact Nat.zero_le _) hfed
  have hlength : pieces.flatten.length ≤ limit := by
    rw [hparser] at hfits
    simpa using hfits
  have houtcome := outcome_feedPieces hstart hfits
  rw [show (parserFor request limit).machine =
    ⟨lexerInit, grammarInit request.date request.timezone request.maxBuckets⟩ by rw [hparser],
    ← outcome_parseBody h hlength, outcome_eq_iff] at houtcome
  obtain ⟨herror, hcandidate⟩ := houtcome
  exact ⟨hlength, herror.symm.trans hok, hcandidate hok⟩

/-! ### What a fetch may do -/

/-- What the parser is asked for; limits of zero stand for the defaults. -/
def VibeContext.usageRequest (g : VibeContext) (dateKey : Int32) : Request where
  date := dateKey
  timezone := g.timezone
  maxBuckets :=
    if g.maxUsageBodyBytes = 0 ∨ g.maxUsageBuckets = 0 then parserDefaultMaxBuckets
    else g.maxUsageBuckets

def VibeContext.bodyLimit (g : VibeContext) : ℕ :=
  if g.maxUsageBodyBytes = 0 ∨ g.maxUsageBuckets = 0 then parserDefaultMaxBody
  else g.maxUsageBodyBytes

/-- The exchange of a call that was made in the context `g` delivered the whole day. -/
structure Delivers (g : VibeContext) (dateKey : Int32) (exchange : Exchange) : Prop where
  request : ValidRequest (g.usageRequest dateKey) g.bodyLimit
  status : exchange.status = 200
  error : exchange.error = none
  cancels : exchange.cancels = 0
  generation : exchange.generation g.auth.generation = g.auth.generation
  fits : exchange.pieces.flatten.length ≤ g.bodyLimit
  accepted : Accepts (g.usageRequest dateKey) g.bodyLimit exchange.pieces.flatten

/-- The cache `m` with the day of a candidate, and no other change to the days. -/
structure StoresDay (m m' : VibeCache) (candidate : DayCandidate) : Prop where
  replaced : ∃ fetchedAt, vibeCacheReplaceDay m candidate fetchedAt = (none, m')
  /-- The day is in a slot that was free, had the date, or had the smallest date of a full cache. -/
  slot : ∃ index : Fin cacheDays, Holds m'.sourceIds m'.days[index] candidate ∧
    (∀ other : Fin cacheDays, other ≠ index → m'.days[other] = m.days[other]) ∧
    (m.days[index].valid = true → m.days[index].dateKey = candidate.dateKey ∨
      FullOther m candidate.dateKey ∧
        ∀ other : Fin cacheDays, m.days[index].dateKey ≤ m.days[other].dateKey)
  validIds : ValidIds m'.sourceIds
  ids : Extends m.sourceIds m'.sourceIds
  timezone : m'.timezone = m.timezone
  /-- The progress of a pass is not touched. -/
  progress : m'.lastReconcileAt = m.lastReconcileAt ∧
    m'.reconcileAnchorKey = m.reconcileAnchorKey ∧
    m'.reconcilePendingMask = m.reconcilePendingMask
  owns : ∀ owner : Owner, owner.Owns m → owner.Owns m'

/-- The account is given up. -/
def GivenUp (g : VibeContext) (c : Client) : Prop :=
  ∃ generation, c.vibe.auth = .unlinked generation ∧
    c.vibe.cache = vibeCacheInit generation g.configRevision g.timezone

/-- How a fetch ends. -/
inductive FetchEnd (dateKey : Int32) (before : Client) : Except EspErr Unit × Client → Prop
  | failed (error : EspErr) (c : Client) (cache : c.vibe.cache = before.vibe.cache) :
    FetchEnd dateKey before (.error error, c)
  | refused (error : EspErr) (c : Client) (status : before.exchange.status = 401)
      (unlinked : GivenUp before.vibe c) : FetchEnd dateKey before (.error error, c)
  | stored (c : Client) (delivers : Delivers before.vibe dateKey before.exchange)
      (cache : StoresDay before.vibe.cache c.vibe.cache
        (parseBody (before.vibe.usageRequest dateKey) before.vibe.bodyLimit
          before.exchange.pieces.flatten).candidate) : FetchEnd dateKey before (.ok (), c)

/-! ### The parts of a fetch -/

section Parts

variable {before : Client} {dateKey : Int32}

/-- The slot that is replaced is the one that the transaction names. -/
theorem Replaces.storesDay {m : VibeCache} {candidate : DayCandidate} {fetchedAt : Int64}
    {ids : Vector CString sourceSlots} {next : DailySlot}
    (h : Replaces m candidate fetchedAt ids next)
    (hreplaced : vibeCacheReplaceDay m candidate fetchedAt =
      (none, storeDay { m with sourceIds := ids } next)) :
    StoresDay m (storeDay { m with sourceIds := ids } next) candidate := by
  refine ⟨⟨fetchedAt, hreplaced⟩, ⟨chooseSlot m candidate.dateKey, ?_, fun other hother ↦ ?_,
    fun hvalid ↦ ?_⟩, h.validIds, h.kept, rfl, ⟨rfl, rfl, rfl⟩, fun _ howns ↦ howns⟩
  · rw [h.chosen]
    exact h.holds
  · exact h.other other (Ne.symm hother)
  · rcases chooseSlot_cases m candidate.dateKey with ⟨-, hdate⟩ | ⟨hfull, hmin⟩
    · exact .inl (hdate hvalid)
    · exact .inr ⟨hfull, hmin⟩

/-- The parser that a fetch feeds. -/
theorem parserFor_usageRequest (g : VibeContext) (dateKey : Int32) :
    vibeUsageParserSetLimits (vibeUsageParserInit dateKey g.timezone) g.maxUsageBodyBytes
      g.maxUsageBuckets = parserFor (g.usageRequest dateKey) g.bodyLimit := by
  have hdefaults : ¬ (parserDefaultMaxBody = 0 ∨ parserDefaultMaxBuckets = 0) := by decide
  unfold parserFor VibeContext.usageRequest VibeContext.bodyLimit vibeUsageParserSetLimits
  by_cases hzero : g.maxUsageBodyBytes = 0 ∨ g.maxUsageBuckets = 0
  · simp only [if_pos hzero]
    rw [if_neg hdefaults]
    rfl
  · simp only [if_neg hzero]

/-- A request that can be written is one that the parser can be asked about. -/
theorem validRequest_of_bounds {g : VibeContext} {bounds : List UInt8 × List UInt8}
    (h : vibeDateApiBounds dateKey g.timezone = .ok bounds) :
    ValidRequest (g.usageRequest dateKey) g.bodyLimit := by
  have hdefaults : parserDefaultMaxBody ≠ 0 ∧ parserDefaultMaxBuckets ≠ 0 := by decide
  obtain ⟨hdate, hzone⟩ : vibeDateIsValid dateKey = true ∧ g.timezone.Supported := by
    by_contra hbad
    have hguard : ¬ vibeDateIsValid dateKey = true ∨ ¬ g.timezone.Supported := by tauto
    unfold vibeDateApiBounds at h
    rw [if_pos hguard] at h
    cases h
  unfold VibeContext.usageRequest VibeContext.bodyLimit
  by_cases hzero : g.maxUsageBodyBytes = 0 ∨ g.maxUsageBuckets = 0
  · rw [if_pos hzero, if_pos hzero]
    exact ⟨hdate, hzone, hdefaults.1, hdefaults.2⟩
  · rw [if_neg hzero, if_neg hzero]
    exact ⟨hdate, hzone, fun h ↦ hzero (.inl h), fun h ↦ hzero (.inr h)⟩

/-- The parser is ready, and nothing else has changed. -/
theorem ready_prepareDay : Prog.Triple (· = before) (prepareDay dateKey)
    (fun parser c ↦ Lasting before c ∧
      parser = parserFor (before.vibe.usageRequest dateKey) before.vibe.bodyLimit ∧
      ValidRequest (before.vibe.usageRequest dateKey) before.vibe.bodyLimit ∧
      before.vibe.initialized = true) fun _ ↦ Lasting before := by
  have hlasting {α : Type} {p : Vibe α} (hp : Prog.Moves Lasting p) :
      Prog.Triple (Lasting before) p (fun _ ↦ Lasting before) fun _ ↦ Lasting before :=
    .of_moves hp fun _ _ hstep h ↦ trans_of Lasting h hstep
  rintro c rfl
  rw [prepareDay, Prog.bind_of_ok (getVibe_apply c)]
  by_cases hauth : c.vibe.hasAuth = true
  · have hinit : c.vibe.initialized = true := by
      unfold VibeContext.hasAuth at hauth
      simp only [Bool.and_eq_true] at hauth
      exact hauth.1.1.1
    rw [Prog.check_of_pos hauth, Prog.bind_of_ok (Prog.pure_apply () c)]
    refine Prog.Triple.bind (hlasting (lasting_setVibe ?_)) (fun _ ↦ ?_) c (refl_of Lasting c)
    · exact fun _ ↦ rfl
    cases hbounds : vibeDateApiBounds dateKey c.vibe.timezone with
    | error _ => exact fun d hd ↦ hd
    | ok bounds =>
      refine .bind (hlasting (.check _)) fun _ ↦ .bind (hlasting (.check _)) fun _ ↦
        .bind (hlasting (lasting_allocate.bind fun _ ↦ lasting_allocate).attempt) fun memory ↦ ?_
      cases memory with
      | error _ => exact .bind (hlasting (lasting_setError _ _)) fun _ d hd ↦ hd
      | ok =>
        exact fun d hd ↦ ⟨hd, parserFor_usageRequest c.vibe dateKey,
          validRequest_of_bounds hbounds, hinit⟩
  · rw [Prog.check_of_neg hauth]
    exact refl_of Lasting c

/-- The context after the exchange of a call that was made in `before`. -/
structure Answering (before c : Client) : Prop where
  exchange : c.exchange = before.exchange
  cache : c.vibe.cache = before.vibe.cache
  initialized : c.vibe.initialized = before.vibe.initialized
  config : c.vibe.configRevision = before.vibe.configRevision ∧
    c.vibe.timezone = before.vibe.timezone
  cancels : c.vibe.cancelGeneration = before.vibe.cancelGeneration + before.exchange.cancels
  generation : c.vibe.auth.generation = before.exchange.generation before.vibe.auth.generation

/-- What it is about. -/
def Client.answer (c : Client) :
    Exchange × VibeCache × Bool × (UInt32 × Timezone) × UInt32 × UInt32 :=
  (c.exchange, c.vibe.cache, c.vibe.initialized, (c.vibe.configRevision, c.vibe.timezone),
    c.vibe.cancelGeneration, c.vibe.auth.generation)

/-- The answer is the same after a step that keeps it. -/
theorem Answering.of_keeps {c c' : Client} (h : Answering before c)
    (hkeeps : Prog.Keeps Client.answer c c') : Answering before c' := by
  simp only [Prog.Keeps, Client.answer, Prod.mk.injEq] at hkeeps
  obtain ⟨hexchange, hcache, hinit, ⟨hrevision, htimezone⟩, hcancels, hgeneration⟩ := hkeeps
  exact ⟨hexchange.trans h.exchange, hcache.trans h.cache, hinit.trans h.initialized,
    ⟨hrevision.trans h.config.1, htimezone.trans h.config.2⟩, hcancels.trans h.cancels,
    hgeneration.trans h.generation⟩

/-- Nothing of the answer is changed by recording it. -/
theorem keeps_recordResponse : Prog.Moves (Prog.Keeps Client.answer) recordResponse := by
  refine .bind (fun _ ↦ rfl) fun exchange ↦ .bind (fun _ ↦ rfl) fun _ ↦ .ite ?_ (.ret ())
  refine .bind (fun _ ↦ rfl) fun nowUtc ↦ .bind (fun _ ↦ rfl) fun _ ↦ ?_
  refine .bind (fun _ ↦ rfl) fun g ↦ .ite ?_ (.ret ())
  exact .bind (fun _ ↦ rfl) fun _ ↦ .bind (fun _ ↦ rfl) fun _ ↦ .ret ()

/-- **Unlinking** a client that has been started, whatever the storage does. -/
theorem givenUp_vibeUnlink {c : Client} (hinit : c.vibe.initialized = true) :
    GivenUp c.vibe (vibeUnlink c).2 := by
  have hkeep {α : Type} {p : Vibe α}
      (hp : Prog.Moves (Prog.Keeps fun c ↦ (c.vibe.auth, c.vibe.cache)) p) :
      Prog.Triple (GivenUp c.vibe) p (fun _ ↦ GivenUp c.vibe) fun _ ↦ GivenUp c.vibe := by
    refine .of_moves hp fun d d' hkeeps h ↦ ?_
    obtain ⟨generation, hauth, hcache⟩ := h
    obtain ⟨hauth', hcache'⟩ := Prod.mk.inj hkeeps
    exact ⟨generation, hauth'.trans hauth, hcache'.trans hcache⟩
  rw [vibeUnlink, Prog.bind_of_ok (getVibe_apply c), Prog.check_of_pos hinit,
    Prog.bind_of_ok (Prog.pure_apply () c), note, Prog.bind_of_ok (Prog.modify_apply _ _),
    vibeCancel, setVibe, Prog.bind_of_ok (Prog.modify_apply _ _)]
  dsimp only
  rw [Prog.bind_of_ok (Prog.attempt_apply _ _), setVibe, Prog.bind_of_ok (Prog.modify_apply _ _)]
  refine Prog.Leads.of_triple (.bind (hkeep (.attempt ?_)) fun result ↦
    .bind (hkeep ?_) fun _ ↦ hkeep (.lift _)) _ ⟨_, rfl, rfl⟩
  · exact .bind (.lift _) fun _ ↦ .bind (fun _ ↦ rfl) fun _ _ ↦ rfl
  · exact fun _ ↦ rfl

/-- **The request is made**, and the parser has been fed with the pieces. -/
theorem answering_performRequest (parser : Parser) {R : EspErr → Client → Prop} :
    Prog.Triple (Lasting before) (performRequest dateKey parser)
      (fun parser' c ↦ Answering before c ∧ parser' = feedPieces parser before.exchange.pieces)
      R := by
  intro c h
  have hvibe {α : Type} (f : VibeContext → α) (hf : ∀ g, f g.lasting = f g) :
      f c.vibe = f before.vibe := by
    rw [← hf, h.vibe, hf]
  refine ⟨⟨h.exchange, hvibe (·.cache) fun _ ↦ rfl, hvibe (·.initialized) fun _ ↦ rfl,
    ⟨hvibe (·.configRevision) fun _ ↦ rfl, hvibe (·.timezone) fun _ ↦ rfl⟩, ?_, ?_⟩, ?_⟩
  · show c.vibe.cancelGeneration + c.exchange.cancels = _
    rw [hvibe (·.cancelGeneration) fun _ ↦ rfl, h.exchange]
  · show c.exchange.generation c.vibe.auth.generation = _
    rw [hvibe (·.auth) fun _ ↦ rfl, h.exchange]
  · rw [h.exchange]

/-- The parsed body is stored, or the cache stays as it was. -/
theorem fetchEnd_storeBody {pieces : List (List UInt8)} {request : Request} {limit : ℕ}
    (h : ValidRequest request limit) (hids : ValidIds before.vibe.cache.sourceIds) (status : Int) :
    Prog.Triple (Answering before)
      (storeBody (feedPieces (parserFor request limit) pieces) status)
      (fun _ c ↦ pieces.flatten.length ≤ limit ∧ Accepts request limit pieces.flatten ∧
        StoresDay before.vibe.cache c.vibe.cache (parseBody request limit pieces.flatten).candidate)
      fun _ c ↦ c.vibe.cache = before.vibe.cache := by
  have hfail (error : VibeError) : Prog.Triple (fun c ↦ c.vibe.cache = before.vibe.cache) (do
      setError (some error) status
      Prog.fail .invalidResponse : Vibe Unit)
      (fun _ c ↦ pieces.flatten.length ≤ limit ∧ Accepts request limit pieces.flatten ∧
        StoresDay before.vibe.cache c.vibe.cache (parseBody request limit pieces.flatten).candidate)
      fun _ c ↦ c.vibe.cache = before.vibe.cache :=
    .bind (M := fun _ c ↦ c.vibe.cache = before.vibe.cache) (fun _ ↦ id) fun _ _ ↦ id
  unfold storeBody
  dsimp only
  cases herror : (vibeUsageParserFinish (feedPieces (parserFor request limit) pieces)).error with
  | some error => exact (hfail error).conseq (fun _ h ↦ h.cache) (fun _ _ ↦ id) fun _ _ ↦ id
  | none =>
    obtain ⟨hfits, haccepts, hcandidate⟩ := accepts_of_pieces h herror
    rw [hcandidate]
    refine .bind (M := fun _ (c : Client) ↦ c.vibe.cache = before.vibe.cache)
      (fun c h ↦ h.cache) fun fetchedAt ↦
      .bind (M := fun g c ↦ c.vibe.cache = before.vibe.cache ∧ c.vibe = g)
      (fun c h ↦ ⟨h, rfl⟩) fun g c ⟨hcache, hg⟩ ↦ ?_
    rw [show g.cache = before.vibe.cache by rw [← hg, hcache]]
    rcases vibeCacheReplaceDay_cases hids (parseBody request limit pieces.flatten).candidate
      fetchedAt with ⟨error, hreplace⟩ | ⟨ids, next, hreplace, hspec⟩
    · rw [hreplace]
      exact hfail error { c with vibe := { c.vibe with cache := before.vibe.cache } } rfl
    · rw [hreplace]
      exact ⟨hfits, haccepts, hspec.storesDay hreplace⟩

/-- The day has been stored. -/
def DayStored (before : Client) (dateKey : Int32) (c : Client) : Prop :=
  Delivers before.vibe dateKey before.exchange ∧ StoresDay before.vibe.cache c.vibe.cache
    (parseBody (before.vibe.usageRequest dateKey) before.vibe.bodyLimit
      before.exchange.pieces.flatten).candidate

/-- The day has not been stored. -/
def NothingStored (before c : Client) : Prop :=
  c.vibe.cache = before.vibe.cache ∨
    before.exchange.status = 401 ∧ GivenUp before.vibe c

/-- A count that comes back has not been added to. -/
theorem add_eq_self_iff {a b : UInt32} : a = a + b ↔ b = 0 := by
  constructor
  · intro h
    have hsub := congrArg (· - a) h
    simpa using hsub.symm
  · rintro rfl
    exact (UInt32.add_zero a).symm

/-- **The outcome** of the exchange. -/
theorem fetchEnd_settleResponse {asked : VibeContext}
    (hcancels : asked.cancelGeneration = before.vibe.cancelGeneration)
    (hgeneration : asked.auth.generation = before.vibe.auth.generation)
    (h : ValidRequest (before.vibe.usageRequest dateKey) before.vibe.bodyLimit)
    (hinit : before.vibe.initialized = true) (hids : ValidIds before.vibe.cache.sourceIds) :
    Prog.Triple (Answering before) (settleResponse asked (feedPieces
        (parserFor (before.vibe.usageRequest dateKey) before.vibe.bodyLimit)
        before.exchange.pieces))
      (fun _ ↦ DayStored before dateKey) fun _ ↦ NothingStored before := by
  have hfail (error : Option VibeError) (status : Int) (e : EspErr) :
      Prog.Triple (NothingStored before) (do
        setError error status
        Prog.fail e : Vibe Unit) (fun _ ↦ DayStored before dateKey) fun _ ↦ NothingStored before :=
    .bind (M := fun _ ↦ NothingStored before) (fun _ ↦ id) fun _ _ ↦ id
  have hkept (c : Client) (hc : Answering before c) : NothingStored before c := .inl hc.cache
  intro c hc
  rw [settleResponse, Prog.bind_of_ok (getVibe_apply c),
    Prog.bind_of_ok (show getExchange c = (.ok c.exchange, c) from rfl), hc.exchange]
  split
  · exact hfail _ _ _ c (hkept c hc)
  rename_i hsame
  obtain ⟨hsameCancels, hsameGeneration⟩ := not_or.1 hsame
  rw [not_not, hcancels, hc.cancels, add_eq_self_iff] at hsameCancels
  rw [not_not, hgeneration, hc.generation] at hsameGeneration
  split
  · rename_i hstatus
    -- A 401 of this account gives the account up, and with it the cache.
    have hunlinked : NothingStored before (vibeUnlink c).2 := by
      obtain ⟨generation, hauth, hcache⟩ := givenUp_vibeUnlink (hc.initialized.trans hinit)
      rw [hc.config.1, hc.config.2] at hcache
      exact .inr ⟨hstatus, generation, hauth, hcache⟩
    rw [Prog.bind_of_ok (Prog.attempt_apply _ _)]
    cases (vibeUnlink c).1 with
    | ok => exact hfail _ _ _ _ hunlinked
    | error error => exact hfail _ _ _ _ hunlinked
  split
  · exact hfail _ _ _ c (hkept c hc)
  rename_i hok
  obtain ⟨herror, hstatus⟩ := not_or.1 hok
  refine ((fetchEnd_storeBody h hids before.exchange.status).conseq (fun _ ↦ id)
    (fun _ d hd ↦ ?_) fun _ d hd ↦ .inl hd) c hc
  obtain ⟨hfits, haccepts, hstores⟩ := hd
  exact ⟨⟨h, not_not.1 hstatus, by simpa using herror, hsameCancels, hsameGeneration.symm, hfits,
    haccepts⟩, hstores⟩

end Parts

/-! ### The fetch -/

/-- One request, by its end: the day is stored, or nothing is. -/
theorem dayStored_fetchDay {c : Client} (hids : ValidIds c.vibe.cache.sourceIds)
    (dateKey : Int32) : Prog.Triple (· = c) (fetchDay dateKey)
      (fun _ ↦ DayStored c dateKey) fun _ ↦ NothingStored c := by
  refine .bind (ready_prepareDay.conseq (fun _ ↦ id) (fun _ _ ↦ id)
    fun _ d hd ↦ .inl (congrArg (·.cache) hd.vibe)) fun parser d ⟨hd, hparser, hvalid, hinit⟩ ↦ ?_
  obtain ⟨rfl⟩ := hparser
  rw [Prog.bind_of_ok (getVibe_apply d)]
  have hauth : d.vibe.auth.generation = c.vibe.auth.generation :=
    congrArg (·.auth.generation) hd.vibe
  refine Prog.Triple.bind (answering_performRequest _) (fun parser' ↦
    .bind (M := fun _ e ↦ Answering c e ∧ parser' = feedPieces
      (parserFor (c.vibe.usageRequest dateKey) c.vibe.bodyLimit) c.exchange.pieces) ?_ fun _ ↦
    .bind (M := fun _ ↦ DayStored c dateKey) ?_ fun _ ↦ ?_) d hd
  · rintro e ⟨he, hparser'⟩
    have hkeeps := keeps_recordResponse e
    rcases hrun : recordResponse e with ⟨error | a, e'⟩
    · rw [hrun] at hkeeps
      exact .inl (he.of_keeps hkeeps).cache
    · rw [hrun] at hkeeps
      exact ⟨he.of_keeps hkeeps, hparser'⟩
  · rintro e ⟨he, rfl⟩
    exact fetchEnd_settleResponse (congrArg (·.cancelGeneration) hd.vibe) hauth hvalid hinit hids e
      he
  · -- The deadline is cleared, which succeeds and leaves the cache alone.
    intro e he
    rw [clearDeadline, Prog.bind_of_ok (getVibe_apply e)]
    split
    · exact he
    · exact he

/-- **A fetch is a transaction**, for every answer of the server in any pieces, every failure of the
transport and the storage, and whatever other tasks do meanwhile. -/
theorem fetchDay_transaction {c : Client} (hids : ValidIds c.vibe.cache.sourceIds)
    (dateKey : Int32) : FetchEnd dateKey c (fetchDay dateKey c) := by
  have hend := dayStored_fetchDay hids dateKey c rfl
  rcases hresult : fetchDay dateKey c with ⟨error | a, d⟩
  · rw [hresult] at hend
    rcases hend with hcache | ⟨hstatus, hunlinked⟩
    · exact .failed error d hcache
    · exact .refused error d hstatus hunlinked
  · rw [hresult] at hend
    exact .stored d hend.1 hend.2

/-- A client that is answered with one bucket, in two pieces. -/
def answeredClient : Client := { Client.zero with
  clock := fun _ ↦ 1784073600
  vibe := { VibeContext.zero with
    initialized := true
    timezone := .utc
    auth := ⟨true, false, 1, .ofBytes (httpsScheme ++ ascii ['a', 'p', 'i']), .ofBytes [0x6B]⟩
    cache := vibeCacheInit 1 1 .utc }
  exchange := { Exchange.silent with
    pieces := codexPieces
    error := none
    status := 200 } }

/-- The day is stored. -/
theorem fetchDay_transaction_sample :
    ((fetchDay 20260715 answeredClient).1 = .ok () ∧
      (vibeCacheFindDay (fetchDay 20260715 answeredClient).2.vibe.cache 20260715).map
        (·.totalTokens) = some 42) ∧
    FetchEnd 20260715 answeredClient (fetchDay 20260715 answeredClient) :=
  ⟨by decide +kernel, fetchDay_transaction (validIds_init 1 1 .utc) 20260715⟩

end VibeUsage
