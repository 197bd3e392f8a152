import VibeUsage.Cache.BoundedMap
import VibeUsage.Storage.CacheSlots

/-!
# What a call does to the cache

The three calls of the client that work on the cache, for one account and configuration and whatever
the server, the clock and the storage do. A call changes the cache in memory and then may write it:
the sequence number grows by one with the first change after a write, and a write goes to the slot
of that number (`CallEnd`).

`callEnd_checkpoint` and its siblings are the only facts about the calls that the runs of `Durable`
need. Between the two, `Unwritten` says that the cache of the storage is the one before the call,
and `Advanced` how the one in memory may differ from it by then.
-/

namespace VibeUsage

/-! ### The cache in memory -/

/-- The cache says what the slot says, up to the times of the fetches and the progress of a pass. It
may have got new ids. -/
structure Agrees (slot cache : VibeCache) : Prop where
  sequence : slot.sequence = cache.sequence
  reconciled : slot.lastReconcileAt = cache.lastReconcileAt
  days : ∀ day : Fin cacheDays, sameDayValue slot.days[day] cache.days[day] = true
  ids : Extends slot.sourceIds cache.sourceIds

/-- A day has the value it has. -/
theorem sameDayValue_refl (slot : DailySlot) : sameDayValue slot slot = true := by
  simp [sameDayValue]

/-- Having the same value is passed on. -/
theorem sameDayValue_trans {a b c : DailySlot} (h : sameDayValue a b = true)
    (h' : sameDayValue b c = true) : sameDayValue a c = true := by
  simp only [sameDayValue, decide_eq_true_eq] at *
  obtain ⟨hvalid, hdate, htotal, hany, hcollapsed, htokens⟩ := h
  obtain ⟨hvalid', hdate', htotal', hany', hcollapsed', htokens'⟩ := h'
  exact ⟨hvalid.trans hvalid', hdate.trans hdate', htotal.trans htotal', hany.trans hany',
    hcollapsed.trans hcollapsed', htokens.trans htokens'⟩

/-- A cache agrees with itself. -/
theorem Agrees.refl (cache : VibeCache) : Agrees cache cache :=
  ⟨rfl, rfl, fun _ ↦ sameDayValue_refl _, Extends.refl _⟩

/-- The ids of an empty cache. -/
theorem validIds_init (generation configRevision : UInt32) (timezone : Timezone) :
    ValidIds (vibeCacheInit generation configRevision timezone).sourceIds :=
  (isMap_init 1 (by decide : (1 : UInt32) ≠ 0) (by decide : Timezone.utc.Supported)).valid.ids

/-- The cache `m` has become `m'`, the flag not having been looked after yet. -/
structure Moved (m m' : VibeCache) : Prop where
  owns : ∀ owner : Owner, owner.Owns m → owner.Owns m'
  ids : ValidIds m'.sourceIds
  sequence : m'.sequence = m.sequence ∧ m'.persisted = m.persisted ∨
    m'.sequence = m.sequence + 1 ∧ m'.persisted = false

/-- The cache has become one that is not persisted. -/
structure Dirty (m m' : VibeCache) : Prop where
  owns : ∀ owner : Owner, owner.Owns m → owner.Owns m'
  ids : ValidIds m'.sourceIds
  persisted : m'.persisted = false
  sequence : m'.sequence = m.sequence ∧ m.persisted = false ∨ m'.sequence = m.sequence + 1

/-- The cache has become one that, as long as it is persisted, agrees with what `m` agreed with. -/
structure Advanced (m m' : VibeCache) : Prop extends Moved m m' where
  agrees : m'.persisted = true → ∀ slot, Agrees slot m → Agrees slot m'

/-- Nothing but the progress of the pass has changed. -/
structure Tweaked (m m' : VibeCache) : Prop extends Advanced m m' where
  same : m'.sequence = m.sequence ∧ m'.persisted = m.persisted

section Cache

variable {m m' : VibeCache}

/-- Nothing has changed. -/
theorem Tweaked.refl (h : ValidIds m.sourceIds) : Tweaked m m :=
  ⟨⟨⟨fun _ ↦ id, h, .inl ⟨rfl, rfl⟩⟩, fun _ _ ↦ id⟩, ⟨rfl, rfl⟩⟩

/-- What is not persisted need not agree with anything. -/
theorem Dirty.advanced (h : Dirty m m') : Advanced m m' := by
  refine ⟨⟨h.owns, h.ids, ?_⟩, fun hpersisted ↦ ?_⟩
  · rcases h.sequence with ⟨hsame, hm⟩ | hnext
    · exact .inl ⟨hsame, h.persisted.trans hm.symm⟩
    · exact .inr ⟨hnext, h.persisted⟩
  · rw [h.persisted] at hpersisted
    cases hpersisted

/-- `mark_cache_dirty` counts the first change after a write. -/
theorem Moved.markDirty (h : Moved m m') : Dirty m m'.markDirty := by
  unfold VibeCache.markDirty
  split
  · rename_i hpersisted
    refine ⟨h.owns, h.ids, rfl, .inr ?_⟩
    rcases h.sequence with ⟨hsame, -⟩ | ⟨-, hdirty⟩
    · rw [← hsame]
    · rw [hdirty] at hpersisted
      cases hpersisted
  · rename_i hdirty
    have hfalse : m'.persisted = false := by simpa using hdirty
    refine ⟨h.owns, h.ids, hfalse, ?_⟩
    rcases h.sequence with ⟨hsame, hm⟩ | ⟨hnext, -⟩
    · exact .inl ⟨hsame, hm.symm.trans hfalse⟩
    · exact .inr hnext

/-- The mark of today is progress of the pass, or makes the cache dirty. -/
theorem Advanced.noteToday (h : Advanced m m') (today : Int32) :
    Advanced m (m'.noteToday today) := by
  have hmoved (anchor : Int32) (mask : UInt8) :
      Moved m { m' with reconcileAnchorKey := anchor, reconcilePendingMask := mask } :=
    ⟨h.owns, h.ids, h.sequence⟩
  unfold VibeCache.noteToday
  split
  · exact (hmoved _ _).markDirty.advanced
  split
  · exact (hmoved m'.reconcileAnchorKey _).markDirty.advanced
  · exact h

/-- A pass that begins makes the cache dirty, if it begins at all. -/
theorem Advanced.beginPass (h : Advanced m m') (includeToday : Bool) (today : Int32) :
    Advanced m (m'.beginPass includeToday today) := by
  have hmoved (anchor : Int32) (mask : UInt8) :
      Moved m { m' with reconcileAnchorKey := anchor, reconcilePendingMask := mask } :=
    ⟨h.owns, h.ids, h.sequence⟩
  unfold VibeCache.beginPass
  split
  · exact (hmoved _ _).markDirty.advanced
  · exact h

/-- A pass that is moved is still only progress. -/
theorem Tweaked.anchorPass (h : Tweaked m m') (today : Int32) :
    Tweaked m (m'.anchorPass today) := by
  unfold VibeCache.anchorPass
  split
  · refine ⟨⟨⟨h.owns, h.ids, h.sequence⟩, fun hpersisted slot hslot ↦ ?_⟩, h.same⟩
    have hagrees := h.agrees hpersisted slot hslot
    exact ⟨hagrees.sequence, hagrees.reconciled, hagrees.days, hagrees.ids⟩
  · exact h

/-- A day of the same value gets its new time, and the cache stays persisted. -/
theorem storeDay_of_same {next : DailySlot}
    (h : sameDayValue m.days[chooseSlot m next.dateKey] next = true) :
    storeDay m next = { m with
      days := m.days.set (chooseSlot m next.dateKey) next (chooseSlot m next.dateKey).isLt } := by
  unfold storeDay
  dsimp only
  rw [if_neg (not_not.2 h), if_neg (not_not.2 h)]

/-- A day of another value makes the cache dirty. -/
theorem storeDay_of_changed {next : DailySlot}
    (h : ¬ sameDayValue m.days[chooseSlot m next.dateKey] next = true) :
    storeDay m next = { m with
      days := m.days.set (chooseSlot m next.dateKey) next (chooseSlot m next.dateKey).isLt
      sequence := m.sequence + 1
      persisted := false } := by
  unfold storeDay
  dsimp only
  rw [if_pos h, if_pos h]

/-- **A day that is replaced** leaves what the flag promises, or takes the promise back. -/
theorem Tweaked.replaceDay (h : Tweaked m m') (candidate : DayCandidate) (fetchedAt : Int64) :
    Advanced m (vibeCacheReplaceDay m' candidate fetchedAt).2 := by
  rcases vibeCacheReplaceDay_cases h.ids candidate fetchedAt with
    ⟨error, herror⟩ | ⟨ids, next, hreplace, hspec⟩
  · rw [herror]
    exact h.toAdvanced
  rw [hreplace]
  dsimp only
  by_cases hsame : sameDayValue m'.days[chooseSlot { m' with sourceIds := ids } next.dateKey]
      next = true
  · rw [storeDay_of_same (m := { m' with sourceIds := ids }) hsame]
    refine ⟨⟨h.owns, hspec.validIds, h.sequence⟩, fun hpersisted slot hslot ↦ ?_⟩
    have hagrees := h.agrees hpersisted slot hslot
    refine ⟨hagrees.sequence, hagrees.reconciled, fun day ↦ ?_, hagrees.ids.trans hspec.kept⟩
    refine sameDayValue_trans (hagrees.days day) ?_
    generalize chooseSlot { m' with sourceIds := ids } next.dateKey = index at hsame ⊢
    by_cases hday : index = day
    · subst hday
      simpa using hsame
    · have hval : index.val ≠ day.val := fun h ↦ hday (Fin.ext h)
      simp [Vector.getElem_set_ne, hval, sameDayValue_refl]
  · rw [storeDay_of_changed (m := { m' with sourceIds := ids }) hsame]
    refine ⟨⟨h.owns, hspec.validIds, .inr ⟨?_, rfl⟩⟩, fun hpersisted ↦ by cases hpersisted⟩
    rw [← h.same.1]

end Cache

/-! ### What leaves the cache alone -/

/-- The entry of the deadline. -/
def RetryOnly : Entries := fun space key ↦ space = .vibeMeta ∧ key = .retry

/-- The account and the configuration that a client works for. -/
def VibeContext.account (g : VibeContext) : Bool × AuthRecord × UInt32 × Timezone :=
  (g.initialized, g.auth, g.configRevision, g.timezone)

/-- The history grows. A body that it has got meanwhile is the one of the exchange. -/
structure Hears (c c' : Client) : Prop where
  grown : c.history <:+ c'.history
  exchange : c'.exchange = c.exchange
  received : ∀ dateKey timezone body, .received dateKey timezone body ∈ c'.history →
    .received dateKey timezone body ∈ c.history ∨
      c.exchange.status = 200 ∧ c.exchange.error = none ∧ c.exchange.pieces.flatten = body

/-- Nothing has been heard. -/
theorem hears_of_same {c c' : Client} (hhistory : c'.history = c.history)
    (hexchange : c'.exchange = c.exchange) : Hears c c' :=
  ⟨hhistory ▸ List.suffix_rfl, hexchange, fun _ _ _ h ↦ .inl (hhistory ▸ h)⟩

instance instReflHears : Std.Refl Hears := ⟨fun _ ↦ hears_of_same rfl rfl⟩

instance instIsTransHears : IsTrans Client Hears := by
  refine ⟨fun c c' c'' h h' ↦ ⟨h.grown.trans h'.grown, h'.exchange.trans h.exchange,
    fun dateKey timezone body hbody ↦ ?_⟩⟩
  rcases h'.received dateKey timezone body hbody with hold | hnew
  · exact h.received dateKey timezone body hold
  · exact .inr (h.exchange ▸ hnew)

/-- The account and the cache stay as they are, in memory and in the flash. -/
structure Still (c c' : Client) : Prop extends Hears c c' where
  board : Within RetryOnly c.board c'.board
  account : c'.vibe.account = c.vibe.account
  cache : c'.vibe.cache = c.vibe.cache

instance instReflStill : Std.Refl Still :=
  ⟨fun c ↦ ⟨refl_of Hears c, refl_of (Within RetryOnly) c.board, rfl, rfl⟩⟩

instance instIsTransStill : IsTrans Client Still := ⟨fun _ _ _ h h' ↦
  ⟨trans_of Hears h.toHears h'.toHears, trans_of (Within RetryOnly) h.board h'.board,
    h'.account.trans h.account, h'.cache.trans h.cache⟩⟩

section Still

open Prog (Moves)

/-- What lasts stands still. -/
theorem still_of_lasting {α : Type} {p : Vibe α} (h : Moves Lasting p) : Moves Still p := by
  intro c
  have hlasting := h c
  have haccount := congrArg VibeContext.account hlasting.vibe
  exact ⟨hears_of_same hlasting.history hlasting.exchange,
    hlasting.board.mono (fun _ _ ↦ False.elim), haccount, congrArg (·.cache) hlasting.vibe⟩

/-- A program of the store that touches the deadline at most. -/
theorem still_stored {α : Type} {p : Nvs α} (h : Moves (Within RetryOnly) p) :
    Moves Still (stored p) := fun c ↦ ⟨hears_of_same rfl rfl, h c.board, rfl, rfl⟩

/-- A change beside the account and the cache. -/
theorem still_setVibe {f : VibeContext → VibeContext}
    (h : ∀ g, (f g).account = g.account ∧ (f g).cache = g.cache) : Moves Still (setVibe f) :=
  fun c ↦ ⟨hears_of_same rfl rfl, refl_of (Within RetryOnly) c.board, (h c.vibe).1, (h c.vibe).2⟩

/-- What is noted here is no body. -/
theorem still_note {contact : Contact}
    (h : ∀ dateKey timezone body, contact ≠ .received dateKey timezone body) :
    Moves Still (note contact) := by
  refine fun c ↦ ⟨⟨List.suffix_cons _ _, rfl, fun dateKey timezone body hbody ↦ .inl ?_⟩,
    refl_of (Within RetryOnly) c.board, rfl, rfl⟩
  exact (List.mem_cons.1 hbody).resolve_left (h dateKey timezone body).symm

theorem still_getVibe : Moves Still getVibe := still_of_lasting lasting_getVibe

theorem still_timeNow : Moves Still timeNow := still_of_lasting lasting_timeNow

theorem still_setError (error : Option VibeError) (httpStatus : Int) :
    Moves Still (setError error httpStatus) := still_of_lasting (lasting_setError error httpStatus)

/-- The deadline is no part of the account. -/
theorem still_raiseDeadline (nowUtc nextUtc : Int64) :
    Moves Still (raiseDeadline nowUtc nextUtc) := by
  refine still_getVibe.bind fun g ↦ .ite (.bind (still_setVibe ?_) fun _ ↦
    (still_stored (moves_writeRetryNotBefore _ ⟨rfl, rfl⟩)).attempt.bind fun _ ↦ .ret _) (.ret _)
  exact fun _ ↦ ⟨rfl, rfl⟩

/-- **What is kept of any response** leaves the account and the cache alone. -/
theorem still_recordResponse : Moves Still recordResponse := by
  refine (still_of_lasting lasting_getExchange).bind fun exchange ↦
    .bind (still_setVibe ?_) fun _ ↦ .ite ?_ (.ret _)
  · exact fun _ ↦ ⟨rfl, rfl⟩
  · exact still_timeNow.bind fun _ ↦ (still_note fun _ _ _ h ↦ by cases h).bind fun _ ↦
      still_raiseDeadline _ _

/-- A success ends the retry window. -/
theorem still_clearDeadline : Moves Still clearDeadline := by
  refine still_getVibe.bind fun g ↦ .ite (.bind (still_setVibe ?_) fun _ ↦
    (still_stored (moves_clearRetryNotBefore ⟨rfl, rfl⟩)).attempt.bind fun _ ↦ .ret _) (.ret _)
  exact fun _ ↦ ⟨rfl, rfl⟩

end Still

/-! ### Before the write -/

/-- The account is not refused, and is the same after the exchange as before. -/
structure Exchange.OneAccount (exchange : Exchange) : Prop where
  status : exchange.status ≠ 401
  generation : ∀ generation, exchange.generation generation = generation

/-- A call that was made in `before` has changed the cache in memory, as `R` says. -/
structure Unwritten (before : Client) (R : VibeCache → Prop) (c : Client) : Prop where
  board : Within RetryOnly before.board c.board
  account : c.vibe.account = before.vibe.account
  exchange : c.exchange = before.exchange
  cache : R c.vibe.cache

section Before

variable {before : Client} {R R' : VibeCache → Prop} {m : VibeCache} {α : Type}

/-- What is known of the cache may be weakened. -/
theorem Unwritten.imp {c : Client} (h : Unwritten before R c) (hR : ∀ m, R m → R' m) :
    Unwritten before R' c := ⟨h.board, h.account, h.exchange, hR _ h.cache⟩

/-- A step that leaves the cache alone. -/
theorem unwritten_of_still {p : Vibe α} (hp : Prog.Moves Still p) :
    Prog.Triple (Unwritten before R) p (fun _ ↦ Unwritten before R) fun _ ↦ Unwritten before R :=
  .of_moves hp fun _ _ hstill h ↦ ⟨trans_of (Within RetryOnly) h.board hstill.board,
    hstill.account.trans h.account, hstill.exchange.trans h.exchange, hstill.cache ▸ h.cache⟩

/-- As before, when what a failure leaves is known less well. -/
theorem unwritten_of_still' {p : Vibe α} (hp : Prog.Moves Still p) (hR : ∀ m, R m → R' m) :
    Prog.Triple (Unwritten before R) p (fun _ ↦ Unwritten before R) fun _ ↦ Unwritten before R' :=
  (unwritten_of_still hp).conseq (fun _ ↦ id) (fun _ _ ↦ id) fun _ _ h ↦ h.imp hR

/-- A change of the cache in memory. -/
theorem unwritten_setCache {f : VibeCache → VibeCache} (hf : ∀ m, R m → R' (f m))
    (E : EspErr → Client → Prop) :
    Prog.Triple (Unwritten before R) (setCache f) (fun _ ↦ Unwritten before R') E :=
  fun _ h ↦ ⟨h.board, h.account, h.exchange, hf _ h.cache⟩

/-- A request is made, in which the account stays the same. -/
theorem unwritten_performRequest (hone : before.exchange.OneAccount) (dateKey : Int32)
    (parser : Parser) :
    Prog.Triple (Unwritten before R) (performRequest dateKey parser) (fun _ ↦ Unwritten before R)
      fun _ ↦ Unwritten before R' := by
  intro c h
  have hgeneration := hone.generation c.vibe.auth.generation
  rw [← h.exchange] at hgeneration
  refine ⟨h.board, ?_, h.exchange, h.cache⟩
  rw [← h.account]
  show (_, { c.vibe.auth with
    generation := c.exchange.generation c.vibe.auth.generation }, _, _) = _
  rw [hgeneration]
  rfl

/-- **The body** of a response, when it is stored. -/
theorem unwritten_storeBody (parser : Parser) (status : Int) :
    Prog.Triple (Unwritten before (Tweaked m)) (storeBody parser status)
      (fun _ ↦ Unwritten before (Advanced m)) fun _ ↦ Unwritten before (Advanced m) := by
  have hfail (error : VibeError) {P : VibeCache → Prop} (hP : ∀ m', P m' → Advanced m m') :
      Prog.Triple (Unwritten before P) (do
        setError (some error) status
        Prog.fail .invalidResponse : Vibe Unit) (fun _ ↦ Unwritten before (Advanced m))
        fun _ ↦ Unwritten before (Advanced m) :=
    .bind (unwritten_of_still' (still_setError _ _) hP) fun _ c h ↦ h.imp hP
  unfold storeBody
  dsimp only
  cases (vibeUsageParserFinish parser).error with
  | some error => exact hfail error fun _ ↦ Tweaked.toAdvanced
  | none =>
    refine .bind (unwritten_of_still' still_timeNow fun _ ↦ Tweaked.toAdvanced) fun fetchedAt ↦
      .bind (M := fun g c ↦ Unwritten before (Tweaked m) c ∧ c.vibe = g) (fun c h ↦ ⟨h, rfl⟩)
      fun g ↦ .bind (M := fun _ ↦ Unwritten before (Advanced m)) ?_ fun _ ↦ ?_
    · rintro c ⟨h, rfl⟩
      exact ⟨h.board, h.account, h.exchange, h.cache.replaceDay _ _⟩
    · cases (vibeCacheReplaceDay g.cache (vibeUsageParserFinish parser).candidate fetchedAt).1 with
      | some error => exact hfail error fun _ ↦ id
      | none => exact fun c h ↦ h

/-- **Fetching a day** changes the cache by that day at most. -/
theorem unwritten_fetchDay (hone : before.exchange.OneAccount) (dateKey : Int32) :
    Prog.Triple (Unwritten before (Tweaked m)) (fetchDay dateKey)
      (fun _ ↦ Unwritten before (Advanced m)) fun _ ↦ Unwritten before (Advanced m) := by
  have hstill {α : Type} {p : Vibe α} (hp : Prog.Moves Still p) :
      Prog.Triple (Unwritten before (Tweaked m)) p (fun _ ↦ Unwritten before (Tweaked m))
        fun _ ↦ Unwritten before (Advanced m) := unwritten_of_still' hp fun _ ↦ Tweaked.toAdvanced
  have hfail (error : Option VibeError) (status : Int) (e : EspErr) :
      Prog.Triple (Unwritten before (Tweaked m)) (do
        setError error status
        Prog.fail e : Vibe Unit) (fun _ ↦ Unwritten before (Advanced m))
        fun _ ↦ Unwritten before (Advanced m) :=
    .bind (hstill (still_setError _ _)) fun _ c h ↦ h.imp fun _ ↦ Tweaked.toAdvanced
  refine .bind (hstill (still_of_lasting (lasting_prepareDay dateKey))) fun parser ↦
    .bind (hstill still_getVibe) fun asked ↦
    .bind (unwritten_performRequest hone dateKey parser) fun parser ↦
    .bind (hstill still_recordResponse) fun _ ↦
    .bind (M := fun _ ↦ Unwritten before (Advanced m)) ?_ fun _ ↦
      unwritten_of_still still_clearDeadline
  refine .bind (hstill still_getVibe) fun g ↦
    .bind (M := fun exchange c ↦ Unwritten before (Tweaked m) c ∧ exchange = before.exchange)
    (fun c h ↦ ⟨h, h.exchange⟩) fun exchange ↦ ?_
  have hsame (c : Client) (h : Unwritten before (Tweaked m) c ∧ exchange = before.exchange) :
      Unwritten before (Tweaked m) c := h.1
  split
  · exact (hfail _ _ _).conseq hsame (fun _ _ ↦ id) fun _ _ ↦ id
  split
  · -- A refused credential is another account's.
    rename_i hrefused
    rintro c ⟨-, rfl⟩
    exact absurd hrefused hone.status
  split
  · exact (hfail _ _ _).conseq hsame (fun _ _ ↦ id) fun _ _ ↦ id
  · exact (unwritten_storeBody parser exchange.status).conseq hsame (fun _ _ ↦ id) fun _ _ ↦ id

end Before

/-! ### The write -/

/-- How a call for one account ends: without a write to the slots, or after one, of the cache `w`.
-/
inductive CallEnd (before c : Client) : Prop
  | kept (h : Unwritten before (Advanced before.vibe.cache) c)
  | wrote (w : VibeCache) (dirty : Dirty before.vibe.cache w)
      (board : Within (fun space key ↦ RetryOnly space key ∨
        space = .vibeCache ∧ key = slotKey w.sequence) before.board c.board)
      (account : c.vibe.account = before.vibe.account)
      (slot : SlotAfter w before.board c.board)
      (cache : c.vibe.cache = w ∨ c.vibe.cache = { w with persisted := true } ∧
        validateCache w = true ∧ c.board.flash.lookup .vibeCache (slotKey w.sequence) =
          some (.blob (blobOf w)))

section Write

variable {before : Client} {α : Type}

/-- What a write does to a slot depends on this slot only. -/
theorem SlotAfter.of_same {cache : VibeCache} {b b' b₁ b₁' : Board} (h : SlotAfter cache b b')
    (hfaults : b₁.faults = b.faults)
    (hbefore : b₁.flash.lookup .vibeCache (slotKey cache.sequence) =
      b.flash.lookup .vibeCache (slotKey cache.sequence))
    (hafter : b₁'.flash.lookup .vibeCache (slotKey cache.sequence) =
      b'.flash.lookup .vibeCache (slotKey cache.sequence)) : SlotAfter cache b₁ b₁' := by
  cases h with
  | unchanged h => exact .unchanged (hafter.trans (h.trans hbefore.symm))
  | written valid h => exact .written valid (hafter.trans h)
  | torn fault h => exact .torn (hfaults ▸ fault) (hafter.trans h)

/-- The deadline is not in a slot of the cache. -/
theorem retryOnly_slot (sequence : UInt32) : ¬ RetryOnly .vibeCache (slotKey sequence) :=
  fun h ↦ absurd h.1 (by decide)

/-- After the write nothing else happens to the cache. -/
theorem callEnd_of_still {p : Vibe α} (hp : Prog.Moves Still p) :
    Prog.Triple (CallEnd before) p (fun _ ↦ CallEnd before) fun _ ↦ CallEnd before := by
  refine .of_moves hp fun c c' hstill h ↦ ?_
  cases h with
  | kept h =>
    exact .kept ⟨trans_of (Within RetryOnly) h.board hstill.board, hstill.account.trans h.account,
      hstill.exchange.trans h.exchange, hstill.cache ▸ h.cache⟩
  | wrote w dirty board account slot cache =>
    have hlookup := hstill.board.lookup .vibeCache _ (retryOnly_slot w.sequence)
    refine .wrote w dirty
      (trans_of (Within _) board (Within.mono (fun _ _ ↦ .inl) _ _ hstill.board))
      (hstill.account.trans account) (slot.of_same rfl rfl hlookup) ?_
    rw [hstill.cache, hlookup]
    exact cache

/-- **The write** of a cache that is not persisted. -/
theorem callEnd_writeCacheNow (nowUtc : Int64) :
    Prog.Triple (Unwritten before (Dirty before.vibe.cache)) (writeCacheNow nowUtc)
      (fun _ ↦ CallEnd before) fun _ ↦ CallEnd before := by
  intro c h
  have hspec := writeCache_spec c.vibe.cache c.board
  have hwithin : Within (fun space key ↦ RetryOnly space key ∨
      space = .vibeCache ∧ key = slotKey c.vibe.cache.sequence) c.board
      (vibeStoreWriteCache c.vibe.cache c.board).2 := moves_writeCache _ (.inr ⟨rfl, rfl⟩) c.board
  have hbefore := h.board.lookup .vibeCache _ (retryOnly_slot c.vibe.cache.sequence)
  rw [writeCacheNow, Prog.bind_of_ok (getVibe_apply c)]
  rcases hrun : vibeStoreWriteCache c.vibe.cache c.board with ⟨error | cache, b⟩
  · rw [hrun] at hspec hwithin
    have hstored : stored (vibeStoreWriteCache c.vibe.cache) c =
        (.error error, { c with board := b }) := by
      show (_, _) = _
      rw [hrun]
    rw [Prog.bind_of_error hstored]
    exact .wrote c.vibe.cache h.cache
      (trans_of (Within _) (Within.mono (fun _ _ ↦ .inl) _ _ h.board) hwithin) h.account
      (hspec.of_same h.board.faults.symm hbefore.symm rfl) (.inl rfl)
  · rw [hrun] at hspec hwithin
    obtain ⟨rfl, hvalid, hslot⟩ := hspec
    have hstored : stored (vibeStoreWriteCache c.vibe.cache) c =
        (.ok { c.vibe.cache with persisted := true }, { c with board := b }) := by
      show (_, _) = _
      rw [hrun]
    rw [Prog.bind_of_ok hstored]
    exact .wrote c.vibe.cache h.cache
      (trans_of (Within _) (Within.mono (fun _ _ ↦ .inl) _ _ h.board) hwithin) h.account
      (.written hvalid hslot) (.inr ⟨rfl, hvalid, hslot⟩)

/-- **The write**, which a call makes at most once. -/
theorem callEnd_checkpoint :
    Prog.Triple (Unwritten before (Advanced before.vibe.cache)) checkpoint
      (fun _ ↦ CallEnd before) fun _ ↦ CallEnd before := by
  have hstill {α : Type} {p : Vibe α} (hp : Prog.Moves Still p) :
      Prog.Triple (Unwritten before (Advanced before.vibe.cache)) p
        (fun _ ↦ Unwritten before (Advanced before.vibe.cache)) fun _ ↦ CallEnd before :=
    (unwritten_of_still hp).conseq (fun _ ↦ id) (fun _ _ ↦ id) fun _ _ ↦ .kept
  refine .bind (hstill still_timeNow) fun nowUtc ↦ .bind (hstill still_getVibe) fun g ↦ ?_
  split
  · exact .bind (unwritten_setCache (fun _ h ↦ h.toMoved.markDirty) _) fun _ ↦
      callEnd_writeCacheNow nowUtc
  · exact fun c h ↦ .kept h

end Write

/-! ### The calls -/

section Calls

variable {c : Client}

/-- The start of a call: the date, on a client that has been started. -/
theorem callEnd_call {α : Type} {f : Int32 → Vibe α} (hids : ValidIds c.vibe.cache.sourceIds)
    (hf : ∀ today, Prog.Triple (Unwritten c (Tweaked c.vibe.cache)) (f today)
      (fun _ ↦ CallEnd c) fun _ ↦ CallEnd c) :
    CallEnd c ((do
      let g ← getVibe
      Prog.check g.initialized .invalidState
      let today ← currentDay
      f today : Vibe α) c).2 := by
  have hstill {α : Type} {p : Vibe α} (hp : Prog.Moves Still p) :
      Prog.Triple (Unwritten c (Tweaked c.vibe.cache)) p
        (fun _ ↦ Unwritten c (Tweaked c.vibe.cache)) fun _ ↦ CallEnd c :=
    (unwritten_of_still hp).conseq (fun _ ↦ id) (fun _ _ ↦ id)
      fun _ _ h ↦ .kept (h.imp fun _ ↦ Tweaked.toAdvanced)
  exact Prog.Leads.of_triple (.bind (hstill still_getVibe) fun g ↦ .bind (hstill (.check _))
    fun _ ↦ .bind (hstill (still_of_lasting lasting_currentDay)) hf) c
    ⟨refl_of (Within RetryOnly) c.board, rfl, rfl, .refl hids⟩

/-- A request of today ends like that. -/
theorem callEnd_vibeFetchToday (hone : c.exchange.OneAccount)
    (hids : ValidIds c.vibe.cache.sourceIds) : CallEnd c (vibeFetchToday c).2 :=
  callEnd_call hids fun today ↦
    .bind ((unwritten_fetchDay hone today).conseq (fun _ ↦ id) (fun _ _ ↦ id) fun _ _ ↦ .kept)
    fun _ ↦ .bind (unwritten_setCache (fun _ h ↦ h.noteToday today) _) fun _ ↦
    .bind callEnd_checkpoint.attempt fun written ↦
      callEnd_of_still (still_of_lasting (lasting_reportStored .today written))

/-- A pass that begins ends like that. -/
theorem callEnd_vibeBeginReconcile (includeToday : Bool) (hids : ValidIds c.vibe.cache.sourceIds) :
    CallEnd c (vibeBeginReconcile includeToday c).2 := by
  refine callEnd_call hids fun today ↦
    .bind (unwritten_setCache (fun _ h ↦ h.toAdvanced.beginPass includeToday today) _) fun _ ↦
    .bind (M := fun g d ↦ Unwritten c (Advanced c.vibe.cache) d ∧ d.vibe = g) (fun d h ↦ ⟨h, rfl⟩)
    fun g ↦ .bind (M := fun _ ↦ CallEnd c) (.attempt ?_) fun written ↦
    .bind (callEnd_of_still (still_setError _ _)) fun _ ↦ callEnd_of_still (.lift _)
  cases hpersisted : g.cache.persisted with
  | true => exact fun d h ↦ .kept h.1
  | false =>
    have hdirty (d : Client) (h : Unwritten c (Advanced c.vibe.cache) d ∧ d.vibe = g) :
        Unwritten c (Dirty c.vibe.cache) d := by
      obtain ⟨h, rfl⟩ := h
      have hmark := h.cache.toMoved.markDirty
      rw [VibeCache.markDirty, if_neg (by simp [hpersisted])] at hmark
      exact ⟨h.board, h.account, h.exchange, hmark⟩
    exact (Prog.Triple.bind ((unwritten_of_still still_timeNow).conseq (fun _ ↦ id) (fun _ _ ↦ id)
      fun _ _ h ↦ .kept (h.imp fun _ ↦ Dirty.advanced)) callEnd_writeCacheNow).conseq hdirty
      (fun _ _ ↦ id) fun _ _ ↦ id

/-- One day of a pass is fetched and noted, and the cache is written. -/
theorem callEnd_reconcileAge (hone : c.exchange.OneAccount) (today : Int32) (age : ℕ) :
    Prog.Triple (Unwritten c (Tweaked c.vibe.cache)) (reconcileAge today age) (fun _ ↦ CallEnd c)
      fun _ ↦ CallEnd c := by
  unfold reconcileAge
  cases dayBefore today age with
  | error _ => exact fun d h ↦ .kept (h.imp fun _ ↦ Tweaked.toAdvanced)
  | ok dateKey =>
    refine .bind ((unwritten_fetchDay hone dateKey).conseq (fun _ ↦ id) (fun _ _ ↦ id)
        fun _ _ ↦ .kept) fun _ ↦
      .bind (M := fun _ ↦ Unwritten c (Moved c.vibe.cache))
        (unwritten_setCache (fun _ h ↦ ⟨h.owns, h.ids, h.sequence⟩) _) fun _ ↦
      .bind (M := fun _ ↦ Unwritten c (Moved c.vibe.cache)) ?_ fun _ ↦
      .bind (unwritten_setCache (fun _ ↦ Moved.markDirty) _) fun _ ↦
      .bind ((unwritten_of_still still_timeNow).conseq (fun _ ↦ id) (fun _ _ ↦ id)
        fun _ _ h ↦ .kept (h.imp fun _ ↦ Dirty.advanced)) fun nowUtc ↦
      .bind (callEnd_writeCacheNow nowUtc).attempt fun written ↦
      callEnd_of_still (still_of_lasting (lasting_reportStored .sevenDays written))
    -- The time of the pass is set before the cache is marked.
    intro d h
    rw [stampPass, Prog.bind_of_ok (getVibe_apply d)]
    split
    · exact ⟨h.board, h.account, h.exchange, h.cache.owns, h.cache.ids, h.cache.sequence⟩
    · exact h

/-- A step of a pass ends like that. -/
theorem callEnd_vibeReconcile (hone : c.exchange.OneAccount)
    (hids : ValidIds c.vibe.cache.sourceIds) : CallEnd c (vibeReconcile c).2 := by
  have hstill {α : Type} {p : Vibe α} (hp : Prog.Moves Still p) :
      Prog.Triple (Unwritten c (Tweaked c.vibe.cache)) p (fun _ ↦ CallEnd c) fun _ ↦ CallEnd c :=
    (unwritten_of_still hp).conseq (fun _ ↦ id)
      (fun _ _ h ↦ .kept (h.imp fun _ ↦ Tweaked.toAdvanced))
      fun _ _ h ↦ .kept (h.imp fun _ ↦ Tweaked.toAdvanced)
  refine callEnd_call hids fun today ↦ .bind (unwritten_setCache (fun _ h ↦ h.anchorPass today) _)
    fun _ ↦ .bind ((unwritten_of_still still_getVibe).conseq (fun _ ↦ id) (fun _ _ ↦ id)
    fun _ _ h ↦ .kept (h.imp fun _ ↦ Tweaked.toAdvanced)) fun g ↦ ?_
  split
  · exact hstill ((still_of_lasting (lasting_vibeSnapshot _)).bind fun _ ↦
      (still_setError _ _).bind fun _ ↦ .ret _)
  · cases nextAge g.cache.reconcilePendingMask with
    | none => exact hstill (still_of_lasting (lasting_vibeSnapshot _))
    | some age => exact callEnd_reconcileAge hone today age

end Calls

end VibeUsage
