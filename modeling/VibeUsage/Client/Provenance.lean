import VibeUsage.Client.Transaction

/-!
# Where the days of the cache come from

Each day in the memory and in the flash is what the parser read in a body that the server sent in
full, to a request for that date in the timezone of the cache: the history has both. A body that
breaks off, is refused or was asked for by an account that has changed meanwhile leaves no trace; a
slot that is erased or torn holds no day. No failure of the storage is ruled out.

The progress of a pass is left out of the invariant (`VibeCache.content`): no day depends on it, and
`validate_cache` refuses one that a clock before 1970 has stamped.
-/

namespace VibeUsage

/-! ### A cache -/

/-- The cache without its number, its flag and the progress of its pass. -/
def VibeCache.content (cache : VibeCache) : VibeCache :=
  { cache with
    sequence := 0
    lastReconcileAt := 0
    reconcileAnchorKey := 0
    reconcilePendingMask := 0
    persisted := false }

/-- The candidate is what the parser says of a body that was received for its date. -/
def Received (history : List Contact) (timezone : Timezone) (candidate : DayCandidate) : Prop :=
  ∃ body, .received candidate.dateKey timezone body ∈ history ∧
    ∃ (maxBuckets : UInt32) (limit : ℕ),
      ValidRequest ⟨candidate.dateKey, timezone, maxBuckets⟩ limit ∧ body.length ≤ limit ∧
        Accepts ⟨candidate.dateKey, timezone, maxBuckets⟩ limit body ∧
        candidate = (parseBody ⟨candidate.dateKey, timezone, maxBuckets⟩ limit body).candidate

/-- The cache maps dates to what was received for them. -/
def Sourced (history : List Contact) (cache : VibeCache) : Prop :=
  ∃ (latest : Int32 → Option DayCandidate) (dates : Finset Int32),
    IsMap ⟨cache.content, latest, dates⟩ ∧
    ∀ date candidate, latest date = some candidate → Received history cache.timezone candidate

section Cache

variable {history : List Contact} {m m' : VibeCache}

/-- The number, the flag and the progress of a pass say nothing about a day. -/
theorem Sourced.of_content (h : Sourced history m) (hcontent : m'.content = m.content) :
    Sourced history m' := by
  obtain ⟨latest, dates, hmap, hreceived⟩ := h
  have htimezone : m'.timezone = m.timezone := congrArg (·.timezone) hcontent
  exact ⟨latest, dates, hcontent ▸ hmap, htimezone ▸ hreceived⟩

/-- What has been received stays received. -/
theorem Sourced.mono {history' : List Contact} (h : Sourced history m)
    (hgrown : history <:+ history') : Sourced history' m := by
  obtain ⟨latest, dates, hmap, hreceived⟩ := h
  refine ⟨latest, dates, hmap, fun date candidate hlatest ↦ ?_⟩
  obtain ⟨body, hbody, hparsed⟩ := hreceived date candidate hlatest
  exact ⟨body, hgrown.subset hbody, hparsed⟩

/-- The days were stored one by one, so the dictionary is one. -/
theorem Sourced.validIds (h : Sourced history m) : ValidIds m.sourceIds := by
  obtain ⟨_, _, hmap, -⟩ := h
  exact hmap.valid.ids

/-- A new cache has no day. -/
theorem sourced_init (generation : UInt32) {configRevision : UInt32} {timezone : Timezone}
    (hrevision : configRevision ≠ 0) (hzone : timezone.Supported) :
    Sourced history (vibeCacheInit generation configRevision timezone) :=
  ⟨fun _ ↦ none, ∅, isMap_init generation hrevision hzone, fun _ _ h ↦ by cases h⟩

/-- Storing a day does not look at what the content leaves out. -/
theorem content_replaceDay {candidate : DayCandidate} {fetchedAt : Int64}
    (h : vibeCacheReplaceDay m candidate fetchedAt = (none, m')) :
    ∃ n, vibeCacheReplaceDay m.content candidate fetchedAt = (none, n) ∧
      n.content = m'.content := by
  unfold vibeCacheReplaceDay at h ⊢
  split at h
  · cases h
  rename_i hguard
  rw [if_neg (show ¬ (¬ vibeDateIsValid candidate.dateKey ∨ fetchedAt ≤ 0 ∨
    candidate.sources.length > sourceSlots ∨ m.content.schemaVersion ≠ cacheSchemaVersion ∨
    m.content.metricId ≠ metricIdApiTotalV1) from hguard)]
  cases hsum : checkSources candidate.sources 0 with
  | error error => rw [hsum] at h; cases h
  | ok sum =>
    rw [hsum] at h
    dsimp only at h ⊢
    split at h
    · cases h
    rename_i htotal
    rw [if_neg htotal]
    rw [show m.content.sourceIds = m.sourceIds from rfl]
    rcases hplace : placeSources candidate.sources m.sourceIds (nextSlot candidate fetchedAt) with
      ⟨ids, error | next⟩
    · rw [hplace] at h
      cases h
    · rw [hplace] at h
      obtain rfl := (Prod.mk.inj h).2
      exact ⟨_, rfl, rfl⟩

/-- Nor do they say what a date is mapped to. -/
theorem IsMap.content {latest : Int32 → Option DayCandidate} {dates : Finset Int32}
    (h : IsMap ⟨m, latest, dates⟩) : IsMap ⟨m.content, latest, dates⟩ := by
  obtain ⟨hschema, hrevision, hmetric, hzone, -⟩ := of_decide_eq_true h.valid.header
  have hheader : validHeader m.content = true :=
    decide_eq_true ⟨hschema, hrevision, hmetric, hzone, (by decide : (0 : Int64) ≤ 0),
      (by decide : (0 : UInt8) &&& ~~~0x7F = 0), fun h ↦ absurd rfl h, fun h ↦ absurd rfl h⟩
  exact ⟨{ h.valid with header := hheader }, h.front, h.day, h.dates⟩

/-- **A day that was received** is stored in a cache of received days. -/
theorem Sourced.replaceDay (h : Sourced history m) {candidate : DayCandidate} {fetchedAt : Int64}
    (hreplace : vibeCacheReplaceDay m candidate fetchedAt = (none, m'))
    (hreceived : Received history m.timezone candidate) :
    Sourced history m' ∧ m'.timezone = m.timezone := by
  obtain ⟨latest, dates, hmap, hlatest⟩ := h
  obtain ⟨n, hcontent, hn⟩ := content_replaceDay hreplace
  rcases vibeCacheReplaceDay_cases hmap.valid.ids candidate fetchedAt with
    ⟨error, herror⟩ | ⟨ids, next, hrun, hspec⟩
  · rw [hcontent] at herror
    cases (Prod.mk.inj herror).1
  have htimezone : m'.timezone = m.timezone := by
    rw [show m'.timezone = n.timezone from (congrArg (·.timezone) hn).symm,
      (Prod.mk.inj (hcontent.symm.trans hrun)).2]
    rfl
  have hrun' : (CacheOp.replace candidate fetchedAt).run m.content = (none, n) := hcontent
  have hstep : History.step ⟨m.content, latest, dates⟩ (.replace candidate fetchedAt) =
      ⟨n, Function.update latest candidate.dateKey (some candidate),
        datesWith dates candidate.dateKey⟩ := by
    unfold History.step
    rw [hrun']
  have hnext := (isUpdate_replace hmap hspec hrun).1
  rw [hstep] at hnext
  refine ⟨⟨_, _, hn ▸ hnext.content, fun date other hother ↦ ?_⟩, htimezone⟩
  rw [htimezone]
  by_cases hdate : date = candidate.dateKey
  · rw [hdate, Function.update_self] at hother
    exact Option.some.inj hother ▸ hreceived
  · rw [Function.update_of_ne hdate] at hother
    exact hlatest date other hother

end Cache

/-! ### The flash -/

/-- Each slot holds a cache of received days, or none. -/
def SlotsSourced (history : List Contact) (flash : Flash) : Prop :=
  ∀ key cache, slotCache flash key = some cache → Sourced history cache

/-- The slots are as they were, or hold no cache any more. -/
def Loses (b b' : Board) : Prop :=
  ∀ key, b'.flash.lookup .vibeCache key = b.flash.lookup .vibeCache key ∨
    slotCache b'.flash key = none

instance instReflLoses : Std.Refl Loses := ⟨fun _ _ ↦ .inl rfl⟩

instance instIsTransLoses : IsTrans Board Loses := by
  refine ⟨fun b b' b'' h h' key ↦ ?_⟩
  rcases h' key with hsame | hnone
  · rcases h key with hsame' | hnone
    · exact .inl (hsame.trans hsame')
    · exact .inr ((slotCache_congr hsame).trans hnone)
  · exact .inr hnone

section Flash

open Prog (Moves)

variable {history : List Contact} {b b' : Board}

/-- What has been received stays received. -/
theorem SlotsSourced.mono {history' : List Contact} {flash : Flash} (h : SlotsSourced history flash)
    (hgrown : history <:+ history') : SlotsSourced history' flash :=
  fun key cache hcache ↦ (h key cache hcache).mono hgrown

/-- A slot that is lost has nothing to account for. -/
theorem SlotsSourced.of_loses (h : SlotsSourced history b.flash) (hloses : Loses b b') :
    SlotsSourced history b'.flash := by
  intro key cache hcache
  rcases hloses key with hsame | hnone
  · exact h key cache (slotCache_congr hsame ▸ hcache)
  · rw [hnone] at hcache
    cases hcache

/-- A program that does not touch the cache. -/
theorem loses_of_within {α : Type} {p : Nvs α}
    (h : Moves (Within fun space _ ↦ space ≠ .vibeCache) p) : Moves Loses p :=
  fun b key ↦ .inl ((h b).lookup .vibeCache key (not_not.2 rfl))

/-- An entry that is not there. -/
theorem slotCache_missing {flash : Flash} {key : NvsKey}
    (h : flash.lookup .vibeCache key = none) : slotCache flash key = none := by
  unfold slotCache Flash.blob
  rw [h]
  rfl

/-- An operation that leaves the slots or empties them. A torn one leaves them here. -/
theorem loses_operate {effect : Flash → Flash} {error : EspErr}
    (h : ∀ flash key, (effect flash).lookup .vibeCache key = flash.lookup .vibeCache key ∨
      (effect flash).lookup .vibeCache key = none) : Moves Loses (operate effect id error) := by
  have heffect (b : Board) : Loses b (b.leaves (effect b.flash)) := fun key ↦
    (h b.flash key).imp id slotCache_missing
  intro b
  unfold operate
  split
  · cases b.faults b.tick with
    | none => exact heffect b
    | fails => exact fun _ ↦ .inl rfl
    | lands => exact heffect b
    | tears => exact fun _ ↦ .inl rfl
    | cut => exact fun _ ↦ .inl rfl
  · exact refl_of Loses b

/-- A key is erased, perhaps one of the slots. -/
theorem loses_eraseKey (space : Namespace) (key : NvsKey) :
    Moves Loses (ignoreNotFound (nvsEraseKey space key)) := by
  have herase : Moves Loses (operate (·.erase space key) id .nvs) := by
    refine loses_operate fun flash other ↦ ?_
    rw [Flash.lookup_erase]
    split
    · exact .inr rfl
    · exact .inl rfl
  refine Moves.bind (Moves.attempt (Moves.get.bind fun _ ↦ herase.bind fun _ ↦ Moves.check _))
    fun outcome ↦ ?_
  split
  · exact Moves.ret _
  · exact Moves.fail _
  · exact Moves.ret _

/-- A program in a namespace that may not be there. -/
theorem loses_ifFound (space : Namespace) {p : Nvs Unit} (hp : Moves Loses p) :
    Moves Loses (ifFound (nvsOpen space) p) := by
  refine (loses_of_within (moves_open space)).attempt.bind fun outcome ↦ ?_
  split
  · exact Moves.ret _
  · exact Moves.fail _
  · exact hp

/-- Nothing is held back for a commit. -/
theorem loses_commit : Moves Loses nvsCommit := loses_of_within moves_commit

/-- **The slots are erased**, or one of them, or none. -/
theorem loses_clearCache : Moves Loses vibeStoreClearCache :=
  loses_ifFound _ ((loses_eraseKey _ _).attempt.bind fun _ ↦ (loses_eraseKey _ _).attempt.bind
    fun _ ↦ (Moves.lift _).bind fun _ ↦ (Moves.lift _).bind fun _ ↦ loses_commit)

/-- A namespace is emptied, perhaps that of the cache. -/
theorem loses_eraseNamespace (name : Namespace) : Moves Loses (eraseNamespace name) := by
  refine loses_ifFound _ (.bind (loses_operate fun flash key ↦ ?_) fun _ ↦ loses_commit)
  rw [Flash.lookup_eraseAll]
  split
  · exact .inr rfl
  · exact .inl rfl

/-- The deadline is forgotten. -/
theorem loses_clearRetry : Moves Loses vibeStoreClearRetryNotBefore :=
  loses_of_within (moves_clearRetryNotBefore (by decide))

/-- The local part of a reset, as far as it comes. -/
theorem loses_finishReset : Moves Loses vibeStoreFinishReset :=
  (loses_eraseNamespace _).bind fun _ ↦ (loses_eraseNamespace _).bind fun _ ↦
    (loses_eraseNamespace _).bind fun _ ↦ loses_clearRetry

/-- A credential is written, also when the write is torn. -/
theorem loses_writeAuth (record : AuthRecord) : Moves Loses (vibeStoreWriteAuth record) :=
  loses_of_within (moves_writeAuth record (by decide))

/-- The journal of a reset is written. -/
theorem loses_beginReset : Moves Loses vibeStoreBeginReset :=
  loses_of_within (moves_beginReset (by decide))

/-- **A write** of a cache of received days, whatever becomes of it. -/
theorem slotsSourced_writeCache {cache : VibeCache} (hcache : Sourced history cache) :
    Prog.Triple (fun b ↦ SlotsSourced history b.flash) (vibeStoreWriteCache cache)
      (fun cache' b ↦ SlotsSourced history b.flash ∧ cache' = { cache with persisted := true })
      fun _ b ↦ SlotsSourced history b.flash := by
  intro b h
  have hspec := writeCache_spec cache b
  have hwithin : Within (fun space key ↦ space = .vibeCache ∧ key = slotKey cache.sequence) b
      (vibeStoreWriteCache cache b).2 := moves_writeCache cache ⟨rfl, rfl⟩ b
  have hslots (b' : Board) (hwithin : Within (fun space key ↦ space = .vibeCache ∧
      key = slotKey cache.sequence) b b') (hslot : SlotAfter cache b b') :
      SlotsSourced history b'.flash := by
    intro key found hfound
    by_cases hkey : key = slotKey cache.sequence
    · subst hkey
      cases hslot with
      | unchanged hsame => exact h _ found (slotCache_congr hsame ▸ hfound)
      | written valid hblob =>
        rw [slotCache_blobOf valid hblob] at hfound
        exact Option.some.inj hfound ▸ hcache.of_content rfl
      | torn fault htorn =>
        rw [slotCache_torn htorn] at hfound
        cases hfound
    · exact h key found (slotCache_congr (hwithin.lookup _ _ fun hmem ↦ hkey hmem.2) ▸ hfound)
  rcases hrun : vibeStoreWriteCache cache b with ⟨error | cache', b'⟩
  · rw [hrun] at hspec hwithin
    exact hslots b' hwithin hspec
  · rw [hrun] at hspec hwithin
    exact ⟨hslots b' hwithin (.written hspec.2.1 hspec.2.2), hspec.1⟩

/-- A blob that is read is in the flash. -/
theorem read_getBlob {space : Namespace} {key : NvsKey} {entry : Option NvsValue} :
    Prog.Triple (fun b ↦ b.flash.lookup space key = entry) (nvsGetBlob space key)
      (fun bytes b ↦ entry = some (.blob bytes) ∧ b.flash.lookup space key = entry)
      fun _ _ ↦ True := by
  have hkeep : Prog.Triple (fun b ↦ b.flash.lookup space key = entry) (operate id id .nvs)
      (fun _ b ↦ b.flash.lookup space key = entry) fun _ _ ↦ True :=
    (Prog.Triple.of_moves (r := Within fun _ _ ↦ False)
      (Q := fun b ↦ b.flash.lookup space key = entry) (moves_operate spares_id spares_id)
      fun _ _ hwithin h ↦ (hwithin.lookup space key id).trans h).conseq (fun _ ↦ id)
      (fun _ _ ↦ id) fun _ _ _ ↦ trivial
  refine .bind (M := fun value b ↦ entry = some value ∧ b.flash.lookup space key = entry)
    (.bind hkeep fun _ ↦ .get fun b hb ↦ ?_) fun value ↦ ?_
  · rw [hb]
    rcases hentry : entry with _ | value
    · exact fun _ _ ↦ trivial
    · cases value with
      | torn => exact fun _ _ ↦ trivial
      | blob bytes => exact fun _ h ↦ ⟨rfl, by rw [h, hb, hentry]⟩
      | u8 value => exact fun _ h ↦ ⟨rfl, by rw [h, hb, hentry]⟩
      | i64 value => exact fun _ h ↦ ⟨rfl, by rw [h, hb, hentry]⟩
      | str bytes => exact fun _ h ↦ ⟨rfl, by rw [h, hb, hentry]⟩
  · cases value with
    | blob bytes => exact fun _ ↦ id
    | torn => exact fun _ _ ↦ trivial
    | u8 value => exact fun _ _ ↦ trivial
    | i64 value => exact fun _ _ ↦ trivial
    | str bytes => exact fun _ _ ↦ trivial

/-- A cache that is loaded is in the flash. -/
theorem found_loadCacheKey (key : NvsKey) {b : Board} :
    Prog.Triple (fun b' ↦ b'.flash.lookup .vibeCache key = b.flash.lookup .vibeCache key)
      (loadCacheKey key) (fun cache _ ↦ slotCache b.flash key = some cache) fun _ _ ↦ True := by
  have hmalloc : Prog.Triple
      (fun b' ↦ b'.flash.lookup .vibeCache key = b.flash.lookup .vibeCache key) malloc
      (fun _ b' ↦ b'.flash.lookup .vibeCache key = b.flash.lookup .vibeCache key) fun _ _ ↦ True :=
    (Prog.Triple.of_moves (r := Within fun _ _ ↦ False) (Q := fun b' ↦
      b'.flash.lookup .vibeCache key = b.flash.lookup .vibeCache key) moves_malloc
      fun _ _ hwithin h ↦ (hwithin.lookup _ key id).trans h).conseq (fun _ ↦ id) (fun _ _ ↦ id)
      fun _ _ _ ↦ trivial
  refine .bind read_getBlob fun sized b₁ ⟨hsized, h₁⟩ ↦ ?_
  refine Prog.Triple.bind (P := fun b' ↦ b'.flash.lookup .vibeCache key =
    b.flash.lookup .vibeCache key) (M := fun _ b' ↦ (b'.flash.lookup .vibeCache key =
      b.flash.lookup .vibeCache key) ∧ sized.length ≠ 0 ∧ sized.length ≤ cacheBlobMaxBytes)
    (.check (fun hsize _ h ↦ ⟨h, hsize⟩) fun _ _ _ ↦ trivial) (fun _ b₂ ⟨h₂, hsize⟩ ↦ ?_) b₁ h₁
  refine Prog.Triple.bind hmalloc (fun _ ↦ .bind read_getBlob fun blob b₃ ⟨hblob, h₃⟩ ↦ ?_) b₂ h₂
  obtain rfl : blob = sized :=
    NvsValue.blob.inj (Option.some.inj (hblob.symm.trans hsized))
  refine Prog.Triple.bind hmalloc (fun _ b₄ _ ↦ ?_) b₃ h₃
  cases hdecode : decodeCacheInto blob with
  | error error => trivial
  | ok cache =>
    show slotCache b.flash key = some cache
    unfold slotCache Flash.blob
    rw [hsized]
    show (if _ then _ else none) = _
    rw [if_pos hsize, hdecode]
    rfl

/-- **What a slot is read as** has been received, since the slot is. -/
theorem sourced_loadCacheKey (key : NvsKey) :
    Prog.Triple (fun b ↦ SlotsSourced history b.flash) (loadCacheKey key)
      (fun cache b ↦ SlotsSourced history b.flash ∧ Sourced history cache)
      fun _ b ↦ SlotsSourced history b.flash := by
  intro b h
  have hfound := found_loadCacheKey key b rfl
  have hloses := loses_of_within (moves_loadCacheKey key) b
  rcases hrun : loadCacheKey key b with ⟨error | cache, b'⟩
  · rw [hrun] at hloses
    exact h.of_loses hloses
  · rw [hrun] at hloses hfound
    exact ⟨h.of_loses hloses, h key cache hfound⟩

/-- One of the two slots is selected. -/
theorem selectSlot_cases {first second : Option VibeCache} {selected : VibeCache}
    (h : selectSlot first second = some selected) :
    first = some selected ∨ second = some selected := by
  unfold selectSlot at h
  cases second with
  | none => exact .inl h
  | some slot =>
    cases first with
    | none => exact .inr h
    | some other =>
      dsimp only at h
      split at h
      · exact .inr h
      · exact .inl h

/-- A slot that is used can be read, and is of this timezone. -/
theorem compatible_eq_some {auth : AuthRecord} {configRevision : UInt32} {timezone : Timezone}
    {read : Except EspErr VibeCache} {cache : VibeCache}
    (h : compatible auth configRevision timezone read = some cache) :
    read = .ok cache ∧ cache.timezone = timezone := by
  cases read with
  | error error => cases h
  | ok slot =>
    unfold compatible at h
    dsimp only at h
    split at h
    · rename_i hsame
      cases h
      exact ⟨rfl, hsame.2.2.1⟩
    · cases h

/-- **A load** finds a cache of received days, for the timezone that was asked for. -/
theorem sourced_loadCache (auth : AuthRecord) (configRevision : UInt32) (timezone : Timezone) :
    Prog.Triple (fun b ↦ SlotsSourced history b.flash)
      (vibeStoreLoadCache auth configRevision timezone)
      (fun cache b ↦ SlotsSourced history b.flash ∧ Sourced history cache ∧
        cache.timezone = timezone)
      fun _ b ↦ SlotsSourced history b.flash := by
  -- What does not write to the cache leaves what is in the slots.
  have hkeep {α : Type} {p : Nvs α} (hp : Moves (Within fun space _ ↦ space ≠ .vibeCache) p) :
      Prog.Triple (fun b ↦ SlotsSourced history b.flash) p
        (fun _ b ↦ SlotsSourced history b.flash) fun _ b ↦ SlotsSourced history b.flash :=
    .of_moves (Q := fun b ↦ SlotsSourced history b.flash) (loses_of_within hp)
      fun _ _ hloses h ↦ h.of_loses hloses
  refine .bind (hkeep (.check _)) fun _ ↦ .bind (hkeep (moves_openReadOnly _)) fun _ ↦
    .bind (hkeep moves_malloc) fun _ ↦
    .bind (sourced_loadCacheKey .cacheA).outcome fun first b₁ h₁ ↦ ?_
  have hslots₁ : SlotsSourced history b₁.flash := by
    cases first with
    | error error => exact h₁
    | ok cache => exact h₁.1
  have hfirst (cache : VibeCache) (hread : first = .ok cache) : Sourced history cache := by
    rw [hread] at h₁
    exact h₁.2
  refine Prog.Triple.bind (sourced_loadCacheKey .cacheB).outcome (fun second b₂ h₂ ↦ ?_) b₁ hslots₁
  have hslots₂ : SlotsSourced history b₂.flash := by
    cases second with
    | error error => exact h₂
    | ok cache => exact h₂.1
  have hsecond (cache : VibeCache) (hread : second = .ok cache) : Sourced history cache := by
    rw [hread] at h₂
    exact h₂.2
  -- Either slot that is selected was read, and for the timezone asked for.
  cases hselect : selectSlot (compatible auth configRevision timezone first)
      (compatible auth configRevision timezone second) with
  | some selected =>
    refine ⟨hslots₂, ?_⟩
    rcases selectSlot_cases hselect with hslot | hslot
    · obtain ⟨hread, htimezone⟩ := compatible_eq_some hslot
      exact ⟨hfirst selected hread, htimezone⟩
    · obtain ⟨hread, htimezone⟩ := compatible_eq_some hslot
      exact ⟨hsecond selected hread, htimezone⟩
  | none =>
    cases first with
    | ok cache => exact hslots₂
    | error error =>
      cases second with
      | ok cache => exact hslots₂
      | error error => exact hslots₂

end Flash

/-! ### The client -/

/-- The context has a cache of received days, for its timezone. -/
structure Provided (history : List Contact) (g : VibeContext) : Prop where
  revision : g.configRevision ≠ 0
  timezone : g.timezone.Supported
  cache : Sourced history g.cache
  same : g.cache.timezone = g.timezone

/-- What the history has received, and what is received next, is among `bodies`. -/
structure Listened (bodies : Set (List UInt8)) (c : Client) : Prop where
  received : ∀ dateKey timezone body, .received dateKey timezone body ∈ c.history → body ∈ bodies
  exchange : c.exchange.status = 200 → c.exchange.error = none → c.exchange.pieces.flatten ∈ bodies

/-- **The invariant** of the client. -/
structure Sourcing (bodies : Set (List UInt8)) (c : Client) : Prop extends Listened bodies c where
  slots : SlotsSourced c.history c.board.flash
  context : c.vibe.initialized = true → Provided c.history c.vibe

/-- The configuration stays as it is, the cache slots are at most lost, and the history grows. -/
structure Abides (c c' : Client) : Prop extends Hears c c' where
  board : Loses c.board c'.board
  initialized : c'.vibe.initialized = c.vibe.initialized
  revision : c'.vibe.configRevision = c.vibe.configRevision
  timezone : c'.vibe.timezone = c.vibe.timezone

/-- So do the days in memory. -/
structure Retells (c c' : Client) : Prop extends Abides c c' where
  content : c'.vibe.cache.content = c.vibe.cache.content

instance instReflAbides : Std.Refl Abides :=
  ⟨fun c ↦ ⟨refl_of Hears c, refl_of Loses c.board, rfl, rfl, rfl⟩⟩

instance instIsTransAbides : IsTrans Client Abides := ⟨fun _ _ _ h h' ↦
  ⟨trans_of Hears h.toHears h'.toHears, trans_of Loses h.board h'.board,
    h'.initialized.trans h.initialized, h'.revision.trans h.revision,
    h'.timezone.trans h.timezone⟩⟩

instance instReflRetells : Std.Refl Retells := ⟨fun c ↦ ⟨refl_of Abides c, rfl⟩⟩

instance instIsTransRetells : IsTrans Client Retells := ⟨fun _ _ _ h h' ↦
  ⟨trans_of Abides h.toAbides h'.toAbides, h'.content.trans h.content⟩⟩

section Client

open Prog (Moves Leads)

variable {bodies : Set (List UInt8)} {history : List Contact} {c c' : Client} {α : Type}

/-- What has been received stays received. -/
theorem Provided.mono {history' : List Contact} {g : VibeContext} (h : Provided history g)
    (hgrown : history <:+ history') : Provided history' g :=
  ⟨h.revision, h.timezone, h.cache.mono hgrown, h.same⟩

/-- Another cache of the same timezone, for the same configuration. -/
theorem Provided.of_cache {g g' : VibeContext} (h : Provided history g)
    (hrevision : g'.configRevision = g.configRevision) (htimezone : g'.timezone = g.timezone)
    (hcache : Sourced history g'.cache) (hsame : g'.cache.timezone = g.cache.timezone) :
    Provided history g' :=
  ⟨by rw [hrevision]; exact h.revision, by rw [htimezone]; exact h.timezone, hcache,
    hsame.trans (h.same.trans htimezone.symm)⟩

/-- An empty cache is one of received days. -/
theorem Provided.empty {g g' : VibeContext} (h : Provided history g)
    (hrevision : g'.configRevision = g.configRevision) (htimezone : g'.timezone = g.timezone)
    {generation : UInt32}
    (hcache : g'.cache = vibeCacheInit generation g.configRevision g.timezone) :
    Provided history g' :=
  ⟨by rw [hrevision]; exact h.revision, by rw [htimezone]; exact h.timezone,
    hcache ▸ sourced_init generation h.revision h.timezone, by rw [hcache, htimezone]; rfl⟩

/-- **The bodies stay those of the run**, as the only new one is that of the exchange. -/
theorem Listened.of_hears (h : Listened bodies c) (hhears : Hears c c') : Listened bodies c' := by
  refine ⟨fun dateKey timezone body hbody ↦ ?_, hhears.exchange ▸ h.exchange⟩
  rcases hhears.received dateKey timezone body hbody with hold | ⟨hstatus, herror, hnew⟩
  · exact h.received dateKey timezone body hold
  · exact hnew ▸ h.exchange hstatus herror

/-- The invariant, from what a call does to the flash and from what it leaves in memory. -/
theorem Sourcing.of_abides (h : Sourcing bodies c) (habides : Abides c c')
    (hcontext : c'.vibe.initialized = true → Provided c'.history c'.vibe) : Sourcing bodies c' :=
  ⟨h.toListened.of_hears habides.toHears, (h.slots.mono habides.grown).of_loses habides.board,
    hcontext⟩

/-- The invariant, when the days in memory stay as they are. -/
theorem Sourcing.of_retells (h : Sourcing bodies c) (hretells : Retells c c') :
    Sourcing bodies c' := by
  refine h.of_abides hretells.toAbides fun hinit ↦ ?_
  have hbefore := (h.context (hretells.initialized ▸ hinit)).mono hretells.grown
  exact hbefore.of_cache hretells.revision hretells.timezone
    (hbefore.cache.of_content hretells.content) (congrArg (·.timezone) hretells.content)

/-- So a program that retells keeps the invariant. -/
theorem sourcing_of_retells {p : Vibe α} (hp : Moves Retells p) :
    Leads (Sourcing bodies) p (Sourcing bodies) :=
  .of_moves hp fun _ _ hretells h ↦ h.of_retells hretells

/-- A client that stands still retells the same days. -/
theorem retells_of_still {p : Vibe α} (hp : Moves Still p) : Moves Retells p := by
  intro c
  have hstill := hp c
  have haccount := hstill.account
  simp only [VibeContext.account, Prod.mk.injEq] at haccount
  obtain ⟨hinit, -, hrevision, htimezone⟩ := haccount
  exact ⟨⟨hstill.toHears,
    fun key ↦ .inl (hstill.board.lookup .vibeCache key fun h ↦ absurd h.1 (by decide)), hinit,
    hrevision, htimezone⟩, by rw [hstill.cache]⟩

theorem abides_of_still {p : Vibe α} (hp : Moves Still p) : Moves Abides p := fun c ↦
  (retells_of_still hp c).toAbides

/-- A program of the store that only loses slots. -/
theorem retells_stored {p : Nvs α} (hp : Moves Loses p) : Moves Retells (stored p) := fun c ↦
  ⟨⟨hears_of_same rfl rfl, hp c.board, rfl, rfl, rfl⟩, rfl⟩

/-- A change of the number, the flag or the progress. -/
theorem retells_setCache {f : VibeCache → VibeCache} (h : ∀ m, (f m).content = m.content) :
    Moves Retells (setCache f) := fun c ↦
  ⟨⟨hears_of_same rfl rfl, refl_of Loses c.board, rfl, rfl, rfl⟩, h _⟩

/-! ### A fetch -/

/-- The flash does not see a change of the cache. -/
theorem abides_setCache (f : VibeCache → VibeCache) : Moves Abides (setCache f) := fun c ↦
  ⟨hears_of_same rfl rfl, refl_of Loses c.board, rfl, rfl, rfl⟩

/-- A day is stored in memory only. -/
theorem abides_storeBody (parser : Parser) (status : Int) :
    Moves Abides (storeBody parser status) := by
  have hfail (error : VibeError) : Moves Abides (do
      setError (some error) status
      Prog.fail .invalidResponse : Vibe Unit) :=
    (abides_of_still (still_setError _ _)).bind fun _ ↦ .fail _
  unfold storeBody
  dsimp only
  cases (vibeUsageParserFinish parser).error with
  | some error => exact hfail error
  | none =>
    refine (abides_of_still still_timeNow).bind fun fetchedAt ↦
      (abides_of_still still_getVibe).bind fun g ↦ (abides_setCache _).bind fun _ ↦ ?_
    cases (vibeCacheReplaceDay g.cache (vibeUsageParserFinish parser).candidate fetchedAt).1 with
    | some error => exact hfail error
    | none => exact .ret _

/-- A change of the context that keeps its configuration. -/
theorem abides_setVibe {f : VibeContext → VibeContext}
    (h : ∀ g, (f g).initialized = g.initialized ∧ (f g).configRevision = g.configRevision ∧
      (f g).timezone = g.timezone) : Moves Abides (setVibe f) := fun c ↦
  ⟨hears_of_same rfl rfl, refl_of Loses c.board, (h c.vibe).1, (h c.vibe).2.1, (h c.vibe).2.2⟩

/-- An account is given up, and the slots with it if they can be erased. -/
theorem abides_vibeUnlink : Moves Abides vibeUnlink := by
  have hstored {p : Nvs Unit} (hp : Moves Loses p) : Moves Abides (stored p) := fun c ↦
    (retells_stored hp c).toAbides
  refine (abides_of_still still_getVibe).bind fun g ↦ (Moves.check _).bind fun _ ↦
    (abides_of_still (still_note fun _ _ _ h ↦ by cases h)).bind fun _ ↦
    .bind (abides_setVibe fun _ ↦ ⟨rfl, rfl, rfl⟩) fun _ ↦
    (hstored (loses_writeAuth _)).attempt.bind fun written ↦
    .bind (abides_setVibe fun _ ↦ ⟨rfl, rfl, rfl⟩) fun _ ↦ .bind (.attempt ?_) fun result ↦
    (abides_of_still (still_setError _ _)).bind fun _ ↦ .lift _
  exact (Moves.lift _).bind fun _ ↦ (hstored loses_clearCache).bind fun _ ↦
    hstored loses_clearRetry

/-- **A body that comes in full** is the one of the exchange. -/
theorem hears_performRequest (dateKey : Int32) (parser : Parser) :
    Moves Hears (performRequest dateKey parser) := by
  refine fun c ↦ ⟨(List.suffix_cons _ _).trans (List.suffix_append _ _), rfl,
    fun date timezone body hbody ↦ ?_⟩
  rcases List.mem_append.1 hbody with hreceipt | hrest
  · unfold Exchange.receipt at hreceipt
    split at hreceipt
    · rename_i hfull
      cases List.mem_singleton.1 hreceipt
      exact .inr ⟨hfull.1, hfull.2, rfl⟩
    · cases hreceipt
  · rcases List.mem_cons.1 hrest with hrequest | hold
    · cases hrequest
    · exact .inl hold

/-- A request is made. -/
theorem abides_performRequest (dateKey : Int32) (parser : Parser) :
    Moves Abides (performRequest dateKey parser) := fun c ↦
  ⟨hears_performRequest dateKey parser c, refl_of Loses c.board, rfl, rfl, rfl⟩

/-- What is made of the response. -/
theorem abides_settleResponse (before : VibeContext) (parser : Parser) :
    Moves Abides (settleResponse before parser) := by
  have hfail (error : Option VibeError) (status : Int) (e : EspErr) : Moves Abides (do
      setError error status
      Prog.fail e : Vibe Unit) := (abides_of_still (still_setError _ _)).bind fun _ ↦ .fail _
  refine (abides_of_still still_getVibe).bind fun g ↦
    (abides_of_still (still_of_lasting lasting_getExchange)).bind fun exchange ↦ .ite (hfail _ _ _)
    (.ite ?_ (.ite (hfail _ _ _) (abides_storeBody _ _)))
  refine abides_vibeUnlink.attempt.bind fun result ↦ ?_
  cases result with
  | ok => exact hfail _ _ _
  | error error => exact hfail _ _ _

/-- What follows the request. -/
theorem abides_response (before : VibeContext) (parser : Parser) : Moves Abides (do
    recordResponse
    settleResponse before parser
    clearDeadline : Vibe Unit) :=
  (abides_of_still still_recordResponse).bind fun _ ↦
    (abides_settleResponse before parser).bind fun _ ↦ abides_of_still still_clearDeadline

/-- **A day is fetched**, whatever the response is. -/
theorem abides_fetchDay (dateKey : Int32) : Moves Abides (fetchDay dateKey) :=
  (abides_of_still (still_of_lasting (lasting_prepareDay dateKey))).bind fun _ ↦
    (abides_of_still still_getVibe).bind fun before ↦
    (abides_performRequest dateKey _).bind fun fed ↦ abides_response before fed

/-- The client, once it has been started. -/
def Running (bodies : Set (List UInt8)) (c : Client) : Prop :=
  Sourcing bodies c ∧ c.vibe.initialized = true

/-- A program that retells, of a client that has been started. -/
theorem running_of_retells {p : Vibe α} (hp : Moves Retells p) :
    Prog.Triple (Running bodies) p (fun _ ↦ Running bodies) fun _ ↦ Running bodies :=
  .of_moves hp fun _ _ hretells h ↦ ⟨h.1.of_retells hretells, hretells.initialized.trans h.2⟩

/-- A client that stands still. -/
theorem running_of_still {p : Vibe α} (hp : Moves Still p) :
    Prog.Triple (Running bodies) p (fun _ ↦ Running bodies) fun _ ↦ Running bodies :=
  running_of_retells (retells_of_still hp)

/-- A fetch that succeeds has its date, the timezone and the body in the history. -/
theorem received_fetchDay {dateKey : Int32} {d : Client} (h : fetchDay dateKey c = (.ok (), d))
    (hstatus : c.exchange.status = 200) (herror : c.exchange.error = none) :
    .received dateKey c.vibe.timezone c.exchange.pieces.flatten ∈ d.history := by
  obtain ⟨parser, prepared, hprepare, h⟩ := Prog.bind_eq_ok.1 h
  rw [Prog.bind_of_ok (getVibe_apply prepared)] at h
  have hlasting : Lasting c prepared := by
    have hmoves := lasting_prepareDay dateKey c
    rwa [hprepare] at hmoves
  obtain ⟨fed, asked, hrequest, h⟩ := Prog.bind_eq_ok.1 h
  have hrest : Abides asked d := by
    have hmoves := abides_response prepared.vibe fed asked
    rwa [h] at hmoves
  refine hrest.grown.subset ?_
  obtain ⟨-, rfl⟩ := Prod.mk.inj hrequest
  have htimezone : prepared.vibe.timezone = c.vibe.timezone :=
    congrArg (·.timezone) hlasting.vibe
  refine List.mem_append_left _ ?_
  rw [hlasting.exchange, htimezone]
  unfold Exchange.receipt
  rw [if_pos ⟨hstatus, herror⟩]
  exact List.mem_singleton_self _

/-- **A fetch** stores what has been received, or nothing. -/
theorem running_fetchDay (dateKey : Int32) :
    Prog.Triple (Running bodies) (fetchDay dateKey) (fun _ ↦ Running bodies)
      fun _ ↦ Running bodies := by
  refine .of_leads fun c h ↦ ?_
  have habides := abides_fetchDay dateKey c
  have hrunning (d : Client) (habides : Abides c d) (hcontext : Provided d.history d.vibe) :
      Running bodies d :=
    ⟨h.1.of_abides habides fun _ ↦ hcontext, habides.initialized.trans h.2⟩
  have hend := dayStored_fetchDay (h.1.context h.2).cache.validIds dateKey c rfl
  have hbefore := (h.1.context h.2).mono habides.grown
  rcases hresult : fetchDay dateKey c with ⟨error | a, d⟩
  · rw [hresult] at hend habides hbefore
    refine hrunning d habides ?_
    rcases hend with hcache | ⟨-, generation, -, hcache⟩
    · exact hbefore.of_cache habides.revision habides.timezone (hcache ▸ hbefore.cache)
        (by rw [hcache])
    · exact hbefore.empty habides.revision habides.timezone hcache
  · rw [hresult] at hend habides hbefore
    obtain ⟨hdelivers, hstores⟩ := hend
    refine hrunning d habides ?_
    obtain ⟨fetchedAt, hreplaced⟩ := hstores.replaced
    -- The candidate has the date that was asked for, and its body is in the history with that date.
    have hdate : (parseBody (c.vibe.usageRequest dateKey) c.vibe.bodyLimit
        c.exchange.pieces.flatten).candidate.dateKey = dateKey := by
      obtain ⟨_, _, _, _, _, _, hcounts⟩ :=
        accepts_spec hdelivers.request hdelivers.fits hdelivers.accepted
      exact hcounts.dateKey
    have hreceived : Received d.history c.vibe.cache.timezone (parseBody
        (c.vibe.usageRequest dateKey) c.vibe.bodyLimit c.exchange.pieces.flatten).candidate := by
      refine ⟨c.exchange.pieces.flatten, ?_, (c.vibe.usageRequest dateKey).maxBuckets,
        c.vibe.bodyLimit, ?_⟩
      · rw [hdate, hbefore.same]
        exact received_fetchDay hresult hdelivers.status hdelivers.error
      · rw [hdate, hbefore.same]
        exact ⟨hdelivers.request, hdelivers.fits, hdelivers.accepted, rfl⟩
    obtain ⟨hcache, htimezone⟩ := hbefore.cache.replaceDay hreplaced hreceived
    exact hbefore.of_cache habides.revision habides.timezone hcache htimezone

/-! ### The calls -/

/-- **The write** of the cache in memory. -/
theorem running_writeCacheNow (nowUtc : Int64) :
    Prog.Triple (Running bodies) (writeCacheNow nowUtc) (fun _ ↦ Running bodies)
      fun _ ↦ Running bodies := by
  intro c h
  have hbefore := h.1.context h.2
  have hspec := slotsSourced_writeCache hbefore.cache c.board h.1.slots
  rw [writeCacheNow, Prog.bind_of_ok (getVibe_apply c)]
  rcases hrun : vibeStoreWriteCache c.vibe.cache c.board with ⟨error | cache, b⟩
  · rw [hrun] at hspec
    have hstored : stored (vibeStoreWriteCache c.vibe.cache) c =
        (.error error, { c with board := b }) := by
      show (_, _) = _
      rw [hrun]
    rw [Prog.bind_of_error hstored]
    exact ⟨⟨⟨h.1.received, h.1.exchange⟩, hspec, h.1.context⟩, h.2⟩
  · rw [hrun] at hspec
    obtain ⟨hslots, rfl⟩ := hspec
    have hstored : stored (vibeStoreWriteCache c.vibe.cache) c =
        (.ok { c.vibe.cache with persisted := true }, { c with board := b }) := by
      show (_, _) = _
      rw [hrun]
    rw [Prog.bind_of_ok hstored]
    exact ⟨⟨⟨h.1.received, h.1.exchange⟩, hslots,
      fun _ ↦ hbefore.of_cache rfl rfl (hbefore.cache.of_content rfl) rfl⟩, h.2⟩

/-- A new number is no new content. -/
theorem content_markDirty (m : VibeCache) : m.markDirty.content = m.content := by
  unfold VibeCache.markDirty
  split
  · rfl
  · rfl

/-- Nor is the mark that today has been fetched. -/
theorem content_noteToday (m : VibeCache) (today : Int32) :
    (m.noteToday today).content = m.content := by
  unfold VibeCache.noteToday
  split
  · exact content_markDirty _
  split
  · exact content_markDirty _
  · rfl

/-- Nor is a pass that begins. -/
theorem content_beginPass (m : VibeCache) (includeToday : Bool) (today : Int32) :
    (m.beginPass includeToday today).content = m.content := by
  unfold VibeCache.beginPass
  split
  · exact content_markDirty _
  · rfl

/-- Nor is a pass that is moved to another day. -/
theorem content_anchorPass (m : VibeCache) (today : Int32) :
    (m.anchorPass today).content = m.content := by
  unfold VibeCache.anchorPass
  split
  · rfl
  · rfl

/-- The start of a call, on a client that has been started. -/
theorem sourcing_call {f : Int32 → Vibe α}
    (hf : ∀ today, Prog.Triple (Running bodies) (f today) (fun _ ↦ Running bodies)
      fun _ ↦ Running bodies) :
    Leads (Sourcing bodies) (do
      let g ← getVibe
      Prog.check g.initialized .invalidState
      let today ← currentDay
      f today : Vibe α) (Sourcing bodies) := by
  intro c h
  rw [Prog.bind_of_ok (getVibe_apply c)]
  by_cases hinit : c.vibe.initialized = true
  · rw [Prog.check_of_pos hinit, Prog.bind_of_ok (Prog.pure_apply () c)]
    exact (Leads.of_triple (.bind (running_of_still (still_of_lasting lasting_currentDay)) hf) c
      ⟨h, hinit⟩).1
  · rw [Prog.check_of_neg hinit]
    exact h

/-- **The cache is written**: what the slot holds then has been received. -/
theorem running_checkpoint : Prog.Triple (Running bodies) checkpoint (fun _ ↦ Running bodies)
    fun _ ↦ Running bodies := by
  refine .bind (running_of_still still_timeNow) fun nowUtc ↦
    .bind (running_of_still still_getVibe) fun g ↦ ?_
  split
  · exact .bind (running_of_retells (retells_setCache content_markDirty)) fun _ ↦
      running_writeCacheNow nowUtc
  · exact fun c h ↦ h

/-- A request of today keeps the invariant. -/
theorem sourcing_vibeFetchToday : Leads (Sourcing bodies) vibeFetchToday (Sourcing bodies) :=
  sourcing_call fun today ↦ .bind (running_fetchDay today) fun _ ↦
    .bind (running_of_retells (retells_setCache fun m ↦ content_noteToday m today)) fun _ ↦
    .bind running_checkpoint.attempt fun written ↦
    running_of_still (still_of_lasting (lasting_reportStored .today written))

/-- A pass that begins keeps the invariant. -/
theorem sourcing_vibeBeginReconcile (includeToday : Bool) :
    Leads (Sourcing bodies) (vibeBeginReconcile includeToday) (Sourcing bodies) := by
  refine sourcing_call fun today ↦
    .bind (running_of_retells (retells_setCache fun m ↦ content_beginPass m includeToday today))
    fun _ ↦ .bind (running_of_still still_getVibe) fun g ↦
    .bind (M := fun _ ↦ Running bodies) (.attempt ?_) fun written ↦
    .bind (running_of_still (still_setError _ _)) fun _ ↦ running_of_still (.lift _)
  split
  · exact fun c h ↦ h
  · exact .bind (running_of_still still_timeNow) running_writeCacheNow

/-- One day of a pass is fetched and noted. -/
theorem running_reconcileAge (today : Int32) (age : ℕ) :
    Prog.Triple (Running bodies) (reconcileAge today age) (fun _ ↦ Running bodies)
      fun _ ↦ Running bodies := by
  unfold reconcileAge
  cases dayBefore today age with
  | error _ => exact fun c h ↦ h
  | ok dateKey =>
    have hstamp : Moves Retells stampPass :=
      (retells_of_still still_getVibe).bind fun g ↦ .ite ((retells_of_still still_timeNow).bind
        fun _ ↦ retells_setCache fun _ ↦ rfl) (.ret ())
    exact .bind (running_fetchDay dateKey) fun _ ↦
      .bind (running_of_retells (retells_setCache fun _ ↦ rfl)) fun _ ↦
      .bind (running_of_retells hstamp) fun _ ↦
      .bind (running_of_retells (retells_setCache content_markDirty)) fun _ ↦
      .bind (running_of_still still_timeNow) fun nowUtc ↦
      .bind (running_writeCacheNow nowUtc).attempt fun written ↦
      running_of_still (still_of_lasting (lasting_reportStored .sevenDays written))

/-- A step of a pass keeps the invariant. -/
theorem sourcing_vibeReconcile : Leads (Sourcing bodies) vibeReconcile (Sourcing bodies) := by
  refine sourcing_call fun today ↦
    .bind (running_of_retells (retells_setCache fun m ↦ content_anchorPass m today)) fun _ ↦
    .bind (running_of_still still_getVibe) fun g ↦ ?_
  split
  · exact running_of_still ((still_of_lasting (lasting_vibeSnapshot _)).bind fun _ ↦
      (still_setError _ _).bind fun _ ↦ .ret _)
  · cases nextAge g.cache.reconcilePendingMask with
    | none => exact running_of_still (still_of_lasting (lasting_vibeSnapshot _))
    | some age => exact running_reconcileAge today age

/-! ### Accounts -/

/-- An account that is given up leaves an empty cache. -/
theorem sourcing_vibeUnlink : Leads (Sourcing bodies) vibeUnlink (Sourcing bodies) := by
  intro c h
  have habides := abides_vibeUnlink c
  refine h.of_abides habides fun hinit ↦ ?_
  have hbefore : c.vibe.initialized = true := habides.initialized ▸ hinit
  obtain ⟨_, _, hcache⟩ := givenUp_vibeUnlink hbefore
  exact ((h.context hbefore).mono habides.grown).empty habides.revision habides.timezone hcache

/-- An account is linked, over an empty cache. -/
theorem abides_linkAccount (apiKey : CString) : Moves Abides (linkAccount apiKey) := by
  have hstored {p : Nvs Unit} (hp : Moves Loses p) : Moves Abides (stored p) := fun c ↦
    (retells_stored hp c).toAbides
  refine (abides_of_still still_getVibe).bind fun g ↦
    (hstored (loses_writeAuth _)).attempt.bind fun result ↦ ?_
  cases result with
  | error error => exact (abides_of_still (still_setError _ _)).bind fun _ ↦ .fail _
  | ok =>
    exact .bind (abides_setVibe fun _ ↦ ⟨rfl, rfl, rfl⟩) fun _ ↦
      (hstored loses_clearCache).attempt.bind fun _ ↦
      .bind (abides_setVibe fun _ ↦ ⟨rfl, rfl, rfl⟩) fun _ ↦ abides_of_still (still_setError _ _)

/-- A new account starts with an empty cache. -/
theorem cache_linkAccount (apiKey : CString) (c : Client) :
    (linkAccount apiKey c).2.vibe.cache = c.vibe.cache ∨
      ∃ generation, (linkAccount apiKey c).2.vibe.cache =
        vibeCacheInit generation c.vibe.configRevision c.vibe.timezone := by
  rw [linkAccount, Prog.bind_of_ok (getVibe_apply c)]
  dsimp only
  cases hresult : (vibeStoreWriteAuth ⟨true, false, c.vibe.nextAccountGeneration,
      c.vibe.bootstrapOrigin, apiKey⟩ c.board).1 with
  | error error =>
    rw [Prog.bind_of_ok (attempt_stored hresult)]
    exact .inl rfl
  | ok =>
    rw [Prog.bind_of_ok (attempt_stored hresult)]
    exact .inr ⟨_, rfl⟩

/-- The empty cache has nothing to account for. -/
theorem running_linkAccount (apiKey : CString) :
    Prog.Triple (Running bodies) (linkAccount apiKey) (fun _ ↦ Running bodies)
      fun _ ↦ Running bodies := by
  refine .of_leads fun c ⟨h, hinit⟩ ↦ ?_
  have habides := abides_linkAccount apiKey c
  have hbefore := (h.context hinit).mono habides.grown
  refine ⟨h.of_abides habides fun _ ↦ ?_, habides.initialized.trans hinit⟩
  rcases cache_linkAccount apiKey c with hcache | ⟨generation, hcache⟩
  · exact hbefore.of_cache habides.revision habides.timezone (hcache ▸ hbefore.cache)
      (by rw [hcache])
  · exact hbefore.empty habides.revision habides.timezone hcache

/-! ### Resets -/

/-- The flash, while there is no context. -/
structure Offline (bodies : Set (List UInt8)) (c : Client) : Prop where
  sourcing : Sourcing bodies c
  off : c.vibe.initialized = false

/-- While there is no context only the flash counts. -/
theorem offline_of_retells {p : Vibe α} (hp : Moves Retells p) :
    Leads (Offline bodies) p (Offline bodies) := fun c h ↦
  ⟨h.sourcing.of_retells (hp c), (hp c).initialized.trans h.off⟩

/-- The TODO list is erased. -/
theorem loses_smartTodoClear : Moves Loses smartTodoClear :=
  loses_of_within (moves_smartTodoClear fun _ ↦ by decide)

/-- The settings of the language model are erased. -/
theorem loses_llmSettingsClear : Moves Loses llmSettingsClear :=
  loses_of_within (moves_llmSettingsClear (by decide) (by decide))

/-- The networks are erased. -/
theorem loses_clearCredentials : Moves Loses wifiAdapterClearCredentials :=
  loses_of_within (moves_clearCredentials (fun _ ↦ by decide) fun _ ↦ by decide)

/-- The journal of a reset is taken back. -/
theorem loses_completeReset : Moves Loses vibeStoreCompleteReset :=
  loses_of_within (moves_completeReset (by decide))

/-- A reset is resumed. -/
theorem offline_resumeLocal :
    Leads (Offline bodies) vibeFactoryResetResumeLocal (Offline bodies) :=
  offline_of_retells ((retells_of_still (still_note fun _ _ _ h ↦ by cases h)).bind fun _ ↦
    (retells_stored loses_beginReset).bind fun _ ↦ retells_stored loses_finishReset)

/-! ### Starts -/

/-- The client while `vibe_init` runs. -/
structure Loading (bodies : Set (List UInt8)) (c : Client) : Prop extends Listened bodies c where
  slots : SlotsSourced c.history c.board.flash
  revision : c.vibe.configRevision ≠ 0
  timezone : c.vibe.timezone.Supported

/-- A configuration that is taken has a revision and a known timezone. -/
theorem takeConfig_valid {config : VibeConfig} {g g' : VibeContext}
    (h : takeConfig config g = some g') : g'.configRevision ≠ 0 ∧ g'.timezone.Supported := by
  simp only [takeConfig, Option.bind_eq_bind, Option.bind_eq_some_iff] at h
  obtain ⟨bootstrapOrigin, -, clientName, -, hostname, -, h⟩ := h
  split at h
  · cases h
  rename_i hzone
  cases h
  refine ⟨?_, not_not.1 hzone⟩
  show orDefault config.configRevision 1 ≠ 0
  unfold orDefault
  split
  · decide
  · assumption

/-- While the client is loaded, its configuration stays as it is. -/
theorem Loading.of_same (h : Loading bodies c) (hboard : Loses c.board c'.board)
    (hrevision : c'.vibe.configRevision = c.vibe.configRevision)
    (htimezone : c'.vibe.timezone = c.vibe.timezone) (hhistory : c'.history = c.history)
    (hexchange : c'.exchange = c.exchange) :
    Loading bodies c' :=
  ⟨h.toListened.of_hears (hears_of_same hhistory hexchange), hhistory ▸ h.slots.of_loses hboard,
    by rw [hrevision]; exact h.revision, by rw [htimezone]; exact h.timezone⟩

/-- The deadline is loaded. -/
theorem loading_loadRetry (R : EspErr → Client → Prop) :
    Prog.Triple (Loading bodies) loadRetry (fun _ ↦ Loading bodies) R := by
  intro c h
  have hboard : Loses c.board (stored vibeStoreLoadRetryNotBefore c).2.board :=
    loses_of_within moves_loadRetryNotBefore c.board
  cases hresult : (vibeStoreLoadRetryNotBefore c.board).1 with
  | ok utcSeconds =>
    rw [loadRetry, Prog.bind_of_ok (attempt_stored hresult)]
    exact h.of_same hboard rfl rfl rfl rfl
  | error error =>
    rw [loadRetry, Prog.bind_of_ok (attempt_stored hresult)]
    exact h.of_same hboard rfl rfl rfl rfl

/-- The account is loaded, or is unlinked. -/
theorem loading_loadAuth (config : VibeConfig) (R : EspErr → Client → Prop) :
    Prog.Triple (Loading bodies) (loadAuth config) (fun _ ↦ Loading bodies) R := by
  intro c h
  have hboard : Loses c.board (stored vibeStoreLoadAuth c).2.board :=
    loses_of_within moves_loadAuth c.board
  cases hresult : (vibeStoreLoadAuth c.board).1 with
  | ok auth =>
    rw [loadAuth, Prog.bind_of_ok (attempt_stored hresult)]
    exact h.of_same hboard rfl rfl rfl rfl
  | error error =>
    rw [loadAuth, Prog.bind_of_ok (attempt_stored hresult)]
    exact h.of_same hboard rfl rfl rfl rfl

/-- **The cache is loaded** from a slot, or is a new one. -/
theorem provided_loadCache (R : EspErr → Client → Prop) :
    Prog.Triple (Loading bodies) loadCache
      (fun _ c ↦ Loading bodies c ∧ Provided c.history c.vibe) R := by
  intro c h
  have hempty (d : Client) (hd : Loading bodies d)
      (hcache : d.vibe.cache = vibeCacheInit d.vibe.auth.generation d.vibe.configRevision
        d.vibe.timezone) : Loading bodies d ∧ Provided d.history d.vibe :=
    ⟨hd, hd.revision, hd.timezone, hcache ▸ sourced_init _ hd.revision hd.timezone,
      by rw [hcache]; rfl⟩
  rw [loadCache, Prog.bind_of_ok (getVibe_apply c)]
  split
  · exact hempty _ (h.of_same (refl_of Loses _) rfl rfl rfl rfl) rfl
  have hload := sourced_loadCache c.vibe.auth c.vibe.configRevision c.vibe.timezone c.board h.slots
  rcases hrun : vibeStoreLoadCache c.vibe.auth c.vibe.configRevision c.vibe.timezone c.board with
    ⟨error | cache, b⟩
  · rw [hrun] at hload
    have hresult : (vibeStoreLoadCache c.vibe.auth c.vibe.configRevision c.vibe.timezone
        c.board).1 = .error error := by rw [hrun]
    rw [Prog.bind_of_ok (attempt_stored hresult)]
    refine hempty _ ⟨⟨h.received, h.exchange⟩, ?_, h.revision, h.timezone⟩ rfl
    show SlotsSourced c.history (vibeStoreLoadCache _ _ _ _).2.flash
    rwa [hrun]
  · rw [hrun] at hload
    obtain ⟨hslots, hsourced, htimezone⟩ := hload
    have hresult : (vibeStoreLoadCache c.vibe.auth c.vibe.configRevision c.vibe.timezone
        c.board).1 = .ok cache := by rw [hrun]
    rw [Prog.bind_of_ok (attempt_stored hresult)]
    refine ⟨⟨⟨h.received, h.exchange⟩, ?_, h.revision, h.timezone⟩, h.revision, h.timezone,
      hsourced, htimezone⟩
    show SlotsSourced c.history (vibeStoreLoadCache _ _ _ _).2.flash
    rwa [hrun]

/-- **A start** loads received days, or none. -/
theorem sourcing_vibeInit (config : VibeConfig) (h : Sourcing bodies c) :
    Sourcing bodies (vibeInit config c).2 := by
  rw [vibeInit, Prog.bind_of_ok (getVibe_apply c)]
  cases htake : takeConfig config c.vibe with
  | none => exact ⟨⟨h.received, h.exchange⟩, h.slots, fun hinit ↦ absurd hinit Bool.false_ne_true⟩
  | some g =>
    obtain ⟨hrevision, htimezone⟩ := takeConfig_valid htake
    refine Leads.of_triple (P := fun d ↦ d = c) (.bind (M := fun _ ↦ Loading bodies) ?_ fun _ ↦
      .bind (loading_loadRetry _) fun _ ↦ .bind (loading_loadAuth config _) fun _ ↦
      .bind (provided_loadCache _) fun _ d hd ↦ ?_) c rfl
    · rintro d rfl
      exact ⟨⟨h.received, h.exchange⟩, h.slots, hrevision, htimezone⟩
    · exact ⟨⟨hd.1.received, hd.1.exchange⟩, hd.1.slots,
        fun _ ↦ ⟨hd.1.revision, hd.1.timezone, hd.2.cache, hd.2.same⟩⟩

end Client

end VibeUsage
