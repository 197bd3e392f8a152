import VibeUsage.Client.Advance
import VibeUsage.Client.Start

/-!
# The snapshot that survives

Runs of the client for one account and configuration: fetches, passes and restarts, in which the
storage may fail, or lose power, at any operation of a fetch or a pass. A cache that is marked as
persisted is what the flash holds (`persisted_flag_honest`). The newest snapshot in the flash is
lost by no run that tears a write only in a call that began with a persisted cache
(`persisted_snapshot_kept`): a cache that changes once more while it is not persisted takes the next
sequence number, and with it the slot of the newest snapshot.
-/

namespace VibeUsage

/-! ### Runs -/

inductive ClientCall
  | fetchToday
  | beginReconcile (includeToday : Bool)
  | reconcile
  /-- The power goes and comes back. -/
  | restart

/-- A call, with the exchange it makes and what happens to its operations on the storage. -/
structure ClientStep where
  call : ClientCall
  exchange : Exchange
  faults : ℕ → Fault

namespace Client

variable (config : VibeConfig)

/-- Before a call. -/
def meets (c : Client) (step : ClientStep) : Client := { c with
  exchange := step.exchange
  board := { c.board with tick := 0, faults := step.faults } }

/-- After a power-up. -/
def powerUp (c : Client) : Client := { c with
  vibe := .zero
  board := { c.board with powered := true } }

def step (c : Client) (step : ClientStep) : Client :=
  match step.call with
  | .fetchToday => (vibeFetchToday (c.meets step)).2
  | .beginReconcile includeToday => (vibeBeginReconcile includeToday (c.meets step)).2
  | .reconcile => (vibeReconcile (c.meets step)).2
  | .restart => (vibeInit config (c.meets step).powerUp).2

def run (c : Client) (steps : List ClientStep) : Client := steps.foldl (Client.step config) c

/-- After a start that nothing disturbs. -/
def start (c : Client) : Client := c.step config ⟨.restart, .silent, fun _ ↦ .none⟩

end Client

/-- A call for the account, which the server and the other tasks leave as it is. The storage works
while the client starts. -/
structure ClientStep.Ordinary (step : ClientStep) : Prop where
  account : step.exchange.OneAccount
  restart : step.call = .restart → ∀ k, step.faults k = .none

/-- A write is torn only in a call that begins with a persisted cache. -/
def TearsCovered (config : VibeConfig) : Client → List ClientStep → Prop
  | _, [] => True
  | c, step :: steps =>
    ((∃ k, step.faults k = .tears) → c.vibe.cache.persisted = true) ∧
      TearsCovered config (c.step config step) steps

/-! ### The invariant -/

/-- One of the two slots. -/
def IsSlot (key : NvsKey) : Prop := key = .cacheA ∨ key = .cacheB

/-- Each slot that holds a cache of the owner is that of its number, which is at most `n`. -/
def Owner.Placed (owner : Owner) (flash : Flash) (n : ℕ) : Prop :=
  ∀ key slot, IsSlot key → owner.slot flash key = some slot →
    slotKey slot.sequence = key ∧ slot.sequence.toNat ≤ n

/-- The flag says the truth. -/
def Owner.Honest (owner : Owner) (flash : Flash) (cache : VibeCache) : Prop :=
  cache.persisted = true →
    ∃ slot, owner.newest flash = some slot ∧ Agrees slot cache

/-- The owner's caches, in the flash and in memory. -/
structure Durable (auth : AuthRecord) (owner : Owner) (c : Client) : Prop where
  credential : Credential auth c.board.flash
  owns : owner.Owns c.vibe.cache
  ids : ValidIds c.vibe.cache.sourceIds
  placed : owner.Placed c.board.flash c.vibe.cache.sequence.toNat
  honest : owner.Honest c.board.flash c.vibe.cache

section Invariant

variable {owner : Owner} {auth : AuthRecord} {flash flash' : Flash} {n : ℕ}

/-- The newest cache is the one in the slot of its number. -/
theorem Owner.Placed.newest (h : owner.Placed flash n) {cache : VibeCache}
    (hnewest : owner.newest flash = some cache) :
    owner.slot flash (slotKey cache.sequence) = some cache ∧
      ∀ key slot, IsSlot key → owner.slot flash key = some slot →
        slot.sequence ≤ cache.sequence := by
  obtain ⟨hslot, hfirst, hsecond⟩ := Owner.newest_eq_some hnewest
  constructor
  · rcases hslot with hslot | hslot
    · rw [(h _ _ (.inl rfl) hslot).1]
      exact hslot
    · rw [(h _ _ (.inr rfl) hslot).1]
      exact hslot
  · rintro key slot (rfl | rfl) hkey
    · exact hfirst slot hkey
    · exact hsecond slot hkey

/-- A cache in a slot is the newest when no other is newer. -/
theorem Owner.Placed.newest_of_slot (h : owner.Placed flash n) {cache : VibeCache} {key : NvsKey}
    (hkey : IsSlot key) (hslot : owner.slot flash key = some cache)
    (hnewest : ∀ key slot, IsSlot key → owner.slot flash key = some slot →
      slot.sequence ≤ cache.sequence) : owner.newest flash = some cache := by
  obtain ⟨newest, hsome⟩ := Owner.exists_newest ⟨key, hkey, hslot⟩
  obtain ⟨hplace, hle⟩ := h.newest hsome
  have hsequence : newest.sequence = cache.sequence :=
    UInt32.le_antisymm (hnewest _ _ (slotKey_cases _) hplace) (hle _ _ hkey hslot)
  rw [hsequence, (h _ _ hkey hslot).1, hslot] at hplace
  rw [hsome, ← Option.some.inj hplace]

/-- A cache that is read from the flash is persisted. -/
theorem decodeCacheInto_persisted {bytes : List UInt8} {cache : VibeCache}
    (h : decodeCacheInto bytes = .ok cache) : cache.persisted = true := by
  unfold decodeCacheInto at h
  split at h
  · cases h
  dsimp only at h
  split at h
  · cases h
  split at h
  · cases h
  split at h
  · cases h
  split at h
  · cases h
  · rw [← Except.ok.inj h]

/-- What is read from a slot has been decoded. -/
theorem slotCache_decoded {key : NvsKey} {cache : VibeCache}
    (h : slotCache flash key = some cache) : ∃ bytes, decodeCacheInto bytes = .ok cache := by
  unfold slotCache at h
  obtain ⟨bytes, -, h⟩ := Option.bind_eq_some_iff.1 h
  split at h
  · cases hdecode : decodeCacheInto bytes with
    | error error =>
      rw [hdecode] at h
      cases h
    | ok decoded =>
      rw [hdecode] at h
      exact ⟨bytes, hdecode.trans (congrArg Except.ok (Option.some.inj h))⟩
  · cases h

/-- A slot that can be read holds a valid cache. -/
theorem Owner.slot_valid {key : NvsKey} {cache : VibeCache}
    (h : owner.slot flash key = some cache) : cache.Valid ∧ cache.persisted = true := by
  obtain ⟨bytes, hdecode⟩ := slotCache_decoded (Owner.slot_eq_some.1 h).1
  refine ⟨validateCache_iff.1 (@validateCache_of_decode _ true bytes cache ?_),
    decodeCacheInto_persisted hdecode⟩
  rw [vibeCacheDecode, hdecode]
  rfl

/-- The slot that has been written. -/
theorem Owner.slot_written {w : VibeCache} (howns : owner.Owns w) (hvalid : validateCache w = true)
    (h : flash.lookup .vibeCache (slotKey w.sequence) = some (.blob (blobOf w))) :
    owner.slot flash (slotKey w.sequence) = some { w with persisted := true } :=
  Owner.slot_eq_some.2 ⟨slotCache_blobOf hvalid h, howns⟩

/-- Nothing has changed in the slots. -/
theorem Owner.Placed.of_same (h : owner.Placed flash n) {n' : ℕ} (hn : n ≤ n')
    (hsame : ∀ key, IsSlot key → flash'.lookup .vibeCache key = flash.lookup .vibeCache key) :
    owner.Placed flash' n' := by
  intro key slot hkey hslot
  rw [Owner.slot_congr (hsame key hkey)] at hslot
  obtain ⟨hplace, hle⟩ := h key slot hkey hslot
  exact ⟨hplace, hle.trans hn⟩

/-- The slot of the new number may have been written. -/
theorem Owner.Placed.of_slotAfter {b b' : Board} {w : VibeCache} (h : owner.Placed b.flash n)
    (howns : owner.Owns w) (hn : n ≤ w.sequence.toNat) (hslot : SlotAfter w b b')
    (hother : ∀ key, IsSlot key → key ≠ slotKey w.sequence →
      b'.flash.lookup .vibeCache key = b.flash.lookup .vibeCache key) :
    owner.Placed b'.flash w.sequence.toNat := by
  intro key slot hkey hsome
  by_cases hsame : key = slotKey w.sequence
  · subst hsame
    cases hslot with
    | unchanged hunchanged =>
      rw [Owner.slot_congr hunchanged] at hsome
      obtain ⟨hplace, hle⟩ := h _ slot hkey hsome
      exact ⟨hplace, hle.trans hn⟩
    | written valid hwritten =>
      rw [Owner.slot_written howns valid hwritten] at hsome
      obtain rfl := Option.some.inj hsome
      exact ⟨rfl, le_rfl⟩
    | torn fault htorn =>
      rw [Owner.slot_eq_some, slotCache_torn htorn] at hsome
      cases hsome.1
  · rw [Owner.slot_congr (hother key hkey hsame)] at hsome
    obtain ⟨hplace, hle⟩ := h key slot hkey hsome
    exact ⟨hplace, hle.trans hn⟩

/-- What a call leaves alone besides the slot it writes to. -/
theorem lookup_of_wrote {b b' : Board} {key' : NvsKey}
    (h : Within (fun space key ↦ RetryOnly space key ∨ space = .vibeCache ∧ key = key') b b')
    {key : NvsKey} (hkey : key ≠ key') :
    b'.flash.lookup .vibeCache key = b.flash.lookup .vibeCache key := by
  refine h.lookup _ _ ?_
  rintro (hretry | ⟨-, hsame⟩)
  · exact absurd hretry.1 (by decide)
  · exact hkey hsame

/-- What does not touch the account leaves it. -/
theorem Credential.of_within {touched : Entries} {b b' : Board} (h : Credential auth b.flash)
    (hwithin : Within touched b b') (hspare : ¬ touched .vibeAuth .auth) :
    Credential auth b'.flash := by
  refine ⟨?_, h.linked⟩
  rw [hwithin.lookup _ _ hspare]
  exact h.blob

/-- The number grows by one at most. -/
theorem Moved.sequence_le {m m' : VibeCache} (h : Moved m m')
    (hbound : m.sequence.toNat + 1 < 2 ^ 32) :
    m.sequence.toNat ≤ m'.sequence.toNat ∧ m'.sequence.toNat ≤ m.sequence.toNat + 1 := by
  have hnext : (m.sequence + 1).toNat = m.sequence.toNat + 1 := by
    rw [UInt32.toNat_add]
    exact Nat.mod_eq_of_lt hbound
  rcases h.sequence with ⟨hsame, -⟩ | ⟨hsucc, -⟩
  · rw [hsame]
    omega
  · rw [hsucc, hnext]
    omega

/-- **A call keeps the invariant**, and counts one change at most. -/
theorem Durable.callEnd {c c' : Client} (h : Durable auth owner c) (hend : CallEnd c c')
    (hbound : c.vibe.cache.sequence.toNat + 1 < 2 ^ 32) :
    Durable auth owner c' ∧
      c'.vibe.cache.sequence.toNat ≤ c.vibe.cache.sequence.toNat + 1 := by
  cases hend with
  | kept hkept =>
    have hsame (key : NvsKey) : c'.board.flash.lookup .vibeCache key =
        c.board.flash.lookup .vibeCache key :=
      hkept.board.lookup _ _ fun hretry ↦ absurd hretry.1 (by decide)
    have hspare : ∀ key, ¬ RetryOnly .vibeCache key := fun _ hretry ↦ absurd hretry.1 (by decide)
    obtain ⟨hle, hle'⟩ := hkept.cache.sequence_le hbound
    refine ⟨⟨h.credential.of_within hkept.board fun hretry ↦ absurd hretry.1 (by decide),
      hkept.cache.owns owner h.owns, hkept.cache.ids, h.placed.of_same hle fun key _ ↦ hsame key,
      fun hpersisted ↦ ?_⟩, hle'⟩
    rw [Owner.newest_of_within hkept.board (hspare _) (hspare _)]
    -- Either nothing was counted, or the cache has been marked as not persisted.
    rcases hkept.cache.sequence with ⟨-, hbefore⟩ | ⟨-, hdirty⟩
    · obtain ⟨slot, hnewest, hagrees⟩ := h.honest (hbefore.symm.trans hpersisted)
      exact ⟨slot, hnewest, hkept.cache.agrees hpersisted slot hagrees⟩
    · rw [hdirty] at hpersisted
      cases hpersisted
  | wrote w dirty board account slot cache =>
    have howns := dirty.owns owner h.owns
    obtain ⟨hle, hle'⟩ := dirty.advanced.sequence_le hbound
    have hplaced := h.placed.of_slotAfter howns hle slot fun key _ hkey ↦ lookup_of_wrote board hkey
    have hcredential : Credential auth c'.board.flash := by
      refine h.credential.of_within board ?_
      rintro (hretry | ⟨hspace, -⟩)
      · exact absurd hretry.1 (by decide)
      · exact absurd hspace (by decide)
    -- Either the write failed, and the cache says so, or the slot is the newest one.
    rcases cache with hcache | ⟨hcache, hvalid, hwritten⟩
    · rw [hcache]
      refine ⟨⟨hcredential, hcache ▸ howns, hcache ▸ dirty.ids, hcache ▸ hplaced, ?_⟩, hle'⟩
      rw [hcache]
      intro hpersisted
      rw [dirty.persisted] at hpersisted
      cases hpersisted
    · have hslot := Owner.slot_written howns hvalid hwritten
      refine ⟨⟨hcredential, hcache ▸ howns, hcache ▸ dirty.ids, hcache ▸ hplaced, ?_⟩, ?_⟩
      · rw [hcache]
        have hnewest := hplaced.newest_of_slot (slotKey_cases _) hslot
          fun key other hkey hother ↦ UInt32.le_iff_toNat_le.2 (hplaced key other hkey hother).2
        exact fun _ ↦ ⟨_, hnewest, .refl _⟩
      · rw [hcache]
        exact hle'

end Invariant

/-! ### One step -/

section Steps

variable {config : VibeConfig} {auth : AuthRecord} {c : Client}

/-- **A start** makes the invariant true. -/
theorem durable_vibeInit {n : ℕ} (h : Working c.board) (hcredential : Credential auth c.board.flash)
    (hplaced : (config.owner auth).Placed c.board.flash n)
    (htake : (takeConfig config c.vibe).isSome = true) :
    Durable auth (config.owner auth) (vibeInit config c).2 ∧
      (vibeInit config c).2.vibe.cache.sequence.toNat ≤ n := by
  obtain ⟨-, hboard, hcache⟩ := vibeInit_spec h hcredential htake
  have hcredential' := hcredential.of_within hboard id
  have hsame := Owner.newest_of_within hboard id id (config.owner auth)
  have hplaced' : (config.owner auth).Placed (vibeInit config c).2.board.flash n :=
    hplaced.of_same le_rfl fun key _ ↦ hboard.lookup _ _ id
  generalize (vibeInit config c).2 = c' at *
  cases hnewest : (config.owner auth).newest c.board.flash with
  | none =>
    rw [loadedCache, hnewest] at hcache
    -- Nothing is stored for the owner, so a new cache is started.
    have hnone : ∀ key slot, IsSlot key →
        (config.owner auth).slot c'.board.flash key ≠ some slot := by
      intro key slot hkey hslot
      obtain ⟨newest, hsome⟩ := Owner.exists_newest ⟨key, hkey, hslot⟩
      rw [hsame, hnewest] at hsome
      cases hsome
    rw [hcache]
    refine ⟨⟨hcredential', ?_, ?_, fun key slot hkey hslot ↦ absurd hslot (hnone key slot hkey),
      fun hpersisted ↦ ?_⟩, Nat.zero_le n⟩
    · rw [hcache]
      exact ⟨rfl, rfl, rfl, rfl⟩
    · rw [hcache]
      exact validIds_init _ _ _
    · rw [hcache] at hpersisted
      cases hpersisted
  | some newest =>
    rw [loadedCache, hnewest] at hcache
    have hcache' : c'.vibe.cache = newest := hcache
    rw [hnewest] at hsame
    obtain ⟨hslot, hle⟩ := hplaced'.newest hsame
    refine ⟨⟨hcredential', ?_, ?_, ?_, ?_⟩, ?_⟩
    · rw [hcache']
      exact (Owner.slot_eq_some.1 hslot).2
    · rw [hcache']
      exact (Owner.slot_valid hslot).1.ids
    · rw [hcache']
      exact fun key slot hkey hother ↦
        ⟨(hplaced' key slot hkey hother).1, UInt32.le_iff_toNat_le.1 (hle key slot hkey hother)⟩
    · rw [hcache']
      exact fun _ ↦ ⟨newest, hsame, .refl _⟩
    · rw [hcache']
      exact (hplaced' _ _ (slotKey_cases _) hslot).2

/-- The invariant does not depend on what is to happen. -/
theorem Durable.meets {owner : Owner} (h : Durable auth owner c) (step : ClientStep) :
    Durable auth owner (c.meets step) :=
  ⟨h.credential, h.owns, h.ids, h.placed, h.honest⟩

/-- **A step keeps the invariant.** -/
theorem Durable.step (h : Durable auth (config.owner auth) c) {step : ClientStep}
    (hstep : step.Ordinary) (htake : (takeConfig config .zero).isSome = true)
    (hbound : c.vibe.cache.sequence.toNat + 1 < 2 ^ 32) :
    Durable auth (config.owner auth) (c.step config step) ∧
      (c.step config step).vibe.cache.sequence.toNat ≤ c.vibe.cache.sequence.toNat + 1 := by
  have hmeets := h.meets step
  unfold Client.step
  cases hcall : step.call with
  | fetchToday =>
    exact hmeets.callEnd (callEnd_vibeFetchToday hstep.account h.ids) hbound
  | beginReconcile includeToday =>
    exact hmeets.callEnd (callEnd_vibeBeginReconcile includeToday h.ids) hbound
  | reconcile => exact hmeets.callEnd (callEnd_vibeReconcile hstep.account h.ids) hbound
  | restart =>
    have hworking : Working (c.meets step).powerUp.board := ⟨rfl, hstep.restart hcall⟩
    obtain ⟨hdurable, hle⟩ := durable_vibeInit hworking hmeets.credential hmeets.placed htake
    exact ⟨hdurable, hle.trans (Nat.le_succ _)⟩

/-- The start of a run. -/
theorem durable_start {n : ℕ} (hcredential : Credential auth c.board.flash)
    (hplaced : (config.owner auth).Placed c.board.flash n)
    (htake : (takeConfig config .zero).isSome = true) :
    Durable auth (config.owner auth) (c.start config) ∧
      (c.start config).vibe.cache.sequence.toNat ≤ n :=
  durable_vibeInit (c := (c.meets ⟨.restart, .silent, fun _ ↦ .none⟩).powerUp)
    ⟨rfl, fun _ ↦ rfl⟩ hcredential hplaced htake

/-- **A run keeps the invariant.** -/
theorem Durable.run {steps : List ClientStep} (h : Durable auth (config.owner auth) c)
    (hsteps : ∀ step ∈ steps, step.Ordinary) (htake : (takeConfig config .zero).isSome = true)
    (hbound : c.vibe.cache.sequence.toNat + steps.length < 2 ^ 32) :
    Durable auth (config.owner auth) (c.run config steps) ∧
      (c.run config steps).vibe.cache.sequence.toNat ≤
        c.vibe.cache.sequence.toNat + steps.length := by
  induction steps generalizing c with
  | nil => exact ⟨h, le_rfl⟩
  | cons step steps ih =>
    rw [List.length_cons] at hbound ⊢
    obtain ⟨hone, hle⟩ := h.step (hsteps step (List.mem_cons_self ..)) htake (by omega)
    obtain ⟨hrest, hle'⟩ := ih hone (fun step hmem ↦ hsteps step (List.mem_cons_of_mem _ hmem))
      (by omega)
    exact ⟨hrest, hle'.trans (by omega)⟩

/-! ### A device -/

/-- A configuration. -/
def sampleConfig : VibeConfig where
  bootstrapOrigin := .ofBytes (httpsScheme ++ ascii ['a', 'p', 'i'])
  clientName := .ofBytes (ascii ['d', 'e', 's', 'k'])
  hostname := .ofBytes (ascii ['d', 'e', 's', 'k'])
  timezone := .utc
  generation := 1
  configRevision := 1
  refreshSeconds := 900
  maxUsageBodyBytes := 0
  maxUsageBuckets := 0

/-- The sample begins with empty slots. -/
theorem placed_sampleClient :
    (sampleConfig.owner sampleAuth).Placed sampleClient.board.flash 0 := by
  intro key slot hkey hslot
  have hnone : slotCache sampleClient.board.flash key = none := rfl
  rw [Owner.slot_eq_some, hnone] at hslot
  cases hslot.1

/-- A pass that is begun. -/
def samplePass (faults : ℕ → Fault) : ClientStep := ⟨.beginReconcile true, .silent, faults⟩

/-- Today is fetched, and has 42 tokens. -/
def sampleFetch (faults : ℕ → Fault) : ClientStep :=
  ⟨.fetchToday, { Exchange.silent with pieces := codexPieces, error := none, status := 200 },
    faults⟩

/-- The power goes and comes back. -/
def sampleRestart : ClientStep := ⟨.restart, .silent, fun _ ↦ .none⟩

/-- A pass of the sample is not refused, whatever fails. -/
theorem ordinary_samplePass (faults : ℕ → Fault) : (samplePass faults).Ordinary :=
  ⟨⟨(by decide : (0 : Int) ≠ 401), fun _ ↦ rfl⟩, fun h ↦ by cases h⟩

theorem ordinary_sampleFetch (faults : ℕ → Fault) : (sampleFetch faults).Ordinary :=
  ⟨⟨(by decide : (200 : Int) ≠ 401), fun _ ↦ rfl⟩, fun h ↦ by cases h⟩

/-- The sample starts again with the same configuration. -/
theorem ordinary_sampleRestart : sampleRestart.Ordinary :=
  ⟨⟨by decide, fun _ ↦ rfl⟩, fun _ _ ↦ rfl⟩

/-- The first write is reported to have failed, the second succeeds. -/
def persistedRun : List ClientStep :=
  [samplePass fun k ↦ if k = 4 then .lands else .none, sampleFetch fun _ ↦ .none]

/-- The write of the next pass is torn, and the client is started again. -/
def tornRun : List ClientStep :=
  [samplePass fun k ↦ if k = 3 then .tears else .none, sampleRestart]

/-- The client after some steps. -/
def sampleEnd (steps : List ClientStep) : Client :=
  (sampleClient.start sampleConfig).run sampleConfig steps

theorem ordinary_persistedRun : ∀ step ∈ persistedRun, step.Ordinary := by
  simp only [persistedRun, List.forall_mem_cons, List.not_mem_nil, false_implies, implies_true,
    and_true]
  exact ⟨ordinary_samplePass _, ordinary_sampleFetch _⟩

theorem ordinary_tornRun : ∀ step ∈ tornRun, step.Ordinary := by
  simp only [tornRun, List.forall_mem_cons, List.not_mem_nil, false_implies, implies_true,
    and_true]
  exact ⟨ordinary_samplePass _, ordinary_sampleRestart⟩

/-- What the runs come to: the day is persisted in the slot of number 1, the other slot is torn, and
the start finds the day. -/
theorem sampleEnd_runs :
    ((sampleEnd persistedRun).vibe.cache.persisted = true ∧
      (((sampleConfig.owner sampleAuth).slot (sampleEnd persistedRun).board.flash .cacheB).map
        fun slot ↦ (slot.sequence, (vibeCacheFindDay slot 20260715).map (·.totalTokens))) =
          some (1, some 42)) ∧
    (sampleEnd (persistedRun ++ tornRun)).board.flash.lookup .vibeCache .cacheA = some .torn ∧
      (sampleEnd (persistedRun ++ tornRun)).vibe.cache.persisted = true ∧
      (vibeCacheFindDay (sampleEnd (persistedRun ++ tornRun)).vibe.cache 20260715).map
        (·.totalTokens) = some 42 := by
  decide +kernel

/-! ### The flag -/

/-- **The flag is honest**: in every run of fetches, passes and restarts from a start, with any
failure of the storage in the fetches and passes, a cache that is marked as persisted is the newest
in the flash, up to the times of the fetches, ids without tokens and the progress of a pass. -/
theorem persisted_flag_honest {c : Client} {config : VibeConfig} {auth : AuthRecord} {n : ℕ}
    (hcredential : Credential auth c.board.flash)
    (hplaced : (config.owner auth).Placed c.board.flash n)
    (htake : (takeConfig config .zero).isSome = true) {steps : List ClientStep}
    (hsteps : ∀ step ∈ steps, step.Ordinary) (hbound : n + steps.length < 2 ^ 32) :
    (config.owner auth).Honest ((c.start config).run config steps).board.flash
      ((c.start config).run config steps).vibe.cache := by
  obtain ⟨hstart, hle⟩ := durable_start hcredential hplaced htake
  exact (hstart.run hsteps htake (by omega)).1.honest

/-- A run that ends with a persisted cache. -/
theorem persisted_flag_honest_sample :
    ((sampleEnd persistedRun).vibe.cache.persisted = true ∧
      (((sampleConfig.owner sampleAuth).slot (sampleEnd persistedRun).board.flash .cacheB).map
        fun slot ↦ (slot.sequence, (vibeCacheFindDay slot 20260715).map (·.totalTokens))) =
          some (1, some 42)) ∧
    ∃ slot, (sampleConfig.owner sampleAuth).newest (sampleEnd persistedRun).board.flash =
      some slot ∧ Agrees slot (sampleEnd persistedRun).vibe.cache := by
  have hrun := sampleEnd_runs.1
  have hhonest := persisted_flag_honest credential_sampleClient placed_sampleClient (by decide)
    ordinary_persistedRun (by decide)
  unfold sampleEnd at hrun ⊢
  exact ⟨hrun, hhonest hrun.1⟩

/-! ### The newest snapshot -/

/-- The flash holds `m`, or a newer cache of the owner. -/
def Owner.Retains (owner : Owner) (m : VibeCache) (flash : Flash) : Prop :=
  ∃ slot, owner.newest flash = some slot ∧ (slot = m ∨ m.sequence < slot.sequence)

/-- The snapshot `m` survives; a cache that is not persisted is newer. -/
structure Survives (owner : Owner) (m : VibeCache) (c : Client) : Prop where
  retained : owner.Retains m c.board.flash
  sequence : m.sequence ≤ c.vibe.cache.sequence
  dirty : c.vibe.cache.persisted = false → m.sequence < c.vibe.cache.sequence

/-- A number below the limit grows when it is counted up. -/
theorem sequence_lt_succ {a : UInt32} (h : a.toNat + 1 < 2 ^ 32) : a < a + 1 := by
  rw [UInt32.lt_iff_toNat_lt, UInt32.toNat_add]
  show a.toNat < (a.toNat + 1) % 2 ^ 32
  rw [Nat.mod_eq_of_lt h]
  exact Nat.lt_succ_self _

/-- A cache that has become dirty since is numbered above the persisted one. -/
theorem Dirty.lt {m w before : VibeCache} (h : Dirty before w)
    (hsequence : m.sequence ≤ before.sequence)
    (hdirty : before.persisted = false → m.sequence < before.sequence)
    (hbound : before.sequence.toNat + 1 < 2 ^ 32) : m.sequence < w.sequence := by
  rcases h.sequence with ⟨hsame, hbefore⟩ | hnext
  · rw [hsame]
    exact hdirty hbefore
  · rw [hnext]
    exact UInt32.lt_of_le_of_lt hsequence (sequence_lt_succ hbound)

/-- **The write**: a torn one leaves the newest snapshot alone when the cache was persisted before.
-/
theorem Survives.retained_of_wrote {owner : Owner} {m w : VibeCache} {c c' : Client}
    (h : Survives owner m c) (hdurable : Durable auth owner c)
    (hplaced : owner.Placed c'.board.flash w.sequence.toNat)
    (htears : (∃ k, c.board.faults k = .tears) → c.vibe.cache.persisted = true)
    (dirty : Dirty c.vibe.cache w)
    (board : Within (fun space key ↦ RetryOnly space key ∨
      space = .vibeCache ∧ key = slotKey w.sequence) c.board c'.board)
    (slot : SlotAfter w c.board c'.board) (hnewer : m.sequence < w.sequence) :
    owner.Retains m c'.board.flash := by
  obtain ⟨newest, hnewest, hm⟩ := h.retained
  cases slot with
  | unchanged hsame =>
    refine ⟨newest, ?_, hm⟩
    have hall (key : NvsKey) :
        owner.slot c'.board.flash key = owner.slot c.board.flash key := by
      refine Owner.slot_congr ?_
      by_cases hkey : key = slotKey w.sequence
      · rw [hkey, hsame]
      · exact lookup_of_wrote board hkey
    rw [← hnewest]
    unfold Owner.newest
    rw [hall, hall]
  | written valid hwritten =>
    have hslot := Owner.slot_written (dirty.owns owner hdurable.owns) valid hwritten
    obtain ⟨latest, hlatest⟩ := Owner.exists_newest ⟨_, slotKey_cases _, hslot⟩
    have hle : w.sequence ≤ latest.sequence :=
      (hplaced.newest hlatest).2 _ { w with persisted := true } (slotKey_cases _) hslot
    exact ⟨latest, hlatest, .inr (UInt32.lt_of_lt_of_le hnewer hle)⟩
  | torn fault htorn =>
    -- The slot that was torn is not that of the newest snapshot, whose number is one less.
    have hpersisted := htears fault
    obtain ⟨slot, hsome, hagrees⟩ := hdurable.honest hpersisted
    obtain rfl : slot = newest := Option.some.inj (hsome.symm.trans hnewest)
    obtain ⟨hplace, hle⟩ := hdurable.placed.newest hnewest
    have hnext : w.sequence = slot.sequence + 1 := by
      rcases dirty.sequence with ⟨-, hdirty⟩ | hnext
      · rw [hpersisted] at hdirty
        cases hdirty
      · rw [hnext, hagrees.sequence]
    have hother : slotKey slot.sequence ≠ slotKey w.sequence := by
      rw [hnext]
      exact (slotKey_succ _).symm
    have hkept : owner.slot c'.board.flash (slotKey slot.sequence) = some slot := by
      rw [Owner.slot_congr (lookup_of_wrote board hother)]
      exact hplace
    refine ⟨slot, hplaced.newest_of_slot (slotKey_cases _) hkept fun key other hkey hslot ↦ ?_, hm⟩
    by_cases hsame : key = slotKey w.sequence
    · rw [hsame, Owner.slot_eq_some, slotCache_torn htorn] at hslot
      cases hslot.1
    · rw [Owner.slot_congr (lookup_of_wrote board hsame)] at hslot
      exact hle key other hkey hslot

/-- **A persisted snapshot survives a call**: what is written later is numbered above it. -/
theorem Survives.callEnd {owner : Owner} {m : VibeCache} {c c' : Client} (h : Survives owner m c)
    (hdurable : Durable auth owner c) (hend : CallEnd c c')
    (htears : (∃ k, c.board.faults k = .tears) → c.vibe.cache.persisted = true)
    (hbound : c.vibe.cache.sequence.toNat + 1 < 2 ^ 32) : Survives owner m c' := by
  have hplaced := (hdurable.callEnd hend hbound).1.placed
  cases hend with
  | kept hkept =>
    have hspare : ∀ key, ¬ RetryOnly .vibeCache key := fun _ hretry ↦ absurd hretry.1 (by decide)
    refine ⟨?_, ?_, fun hpersisted ↦ ?_⟩
    · obtain ⟨slot, hnewest, hm⟩ := h.retained
      exact ⟨slot, (Owner.newest_of_within hkept.board (hspare _) (hspare _) owner).trans hnewest,
        hm⟩
    · rw [UInt32.le_iff_toNat_le]
      exact (UInt32.le_iff_toNat_le.1 h.sequence).trans (hkept.cache.sequence_le hbound).1
    · rcases hkept.cache.sequence with ⟨hsame, hbefore⟩ | ⟨hnext, -⟩
      · rw [hsame]
        exact h.dirty (hbefore.symm.trans hpersisted)
      · rw [hnext]
        exact UInt32.lt_of_le_of_lt h.sequence (sequence_lt_succ hbound)
  | wrote w dirty board account slot cache =>
    -- What is written has a higher number than the snapshot.
    have hnewer := dirty.lt h.sequence h.dirty hbound
    have hsequence : c'.vibe.cache.sequence = w.sequence := by
      rcases cache with hcache | ⟨hcache, -⟩
      · rw [hcache]
      · rw [hcache]
    rw [hsequence] at hplaced
    refine ⟨h.retained_of_wrote hdurable hplaced htears dirty board slot hnewer, ?_, fun _ ↦ ?_⟩
    · rw [hsequence]
      exact UInt32.le_of_lt hnewer
    · rw [hsequence]
      exact hnewer

/-- A start loads what has survived. -/
theorem Survives.loaded {owner : Owner} {m : VibeCache} {b : Board} {n : ℕ}
    (h : owner.Retains m b.flash) (hplaced : owner.Placed b.flash n) {c' : Client}
    (hboard : Within (fun _ _ ↦ False) b c'.board)
    (hcache : c'.vibe.cache = loadedCache owner b.flash) : Survives owner m c' := by
  obtain ⟨newest, hnewest, hm⟩ := h
  have hloaded : c'.vibe.cache = newest := by
    rw [hcache, loadedCache, hnewest]
    rfl
  refine ⟨⟨newest, (Owner.newest_of_within hboard id id _).trans hnewest, hm⟩, ?_, ?_⟩
  · rw [hloaded]
    rcases hm with rfl | hlt
    · exact UInt32.le_refl _
    · exact UInt32.le_of_lt hlt
  · rw [hloaded, (Owner.slot_valid (hplaced.newest hnewest).1).2]
    exact fun hdirty ↦ by cases hdirty

/-- **A step** loses nothing. -/
theorem Survives.step {m : VibeCache} (h : Survives (config.owner auth) m c)
    (hdurable : Durable auth (config.owner auth) c) {step : ClientStep} (hstep : step.Ordinary)
    (htake : (takeConfig config .zero).isSome = true)
    (htears : (∃ k, step.faults k = .tears) → c.vibe.cache.persisted = true)
    (hbound : c.vibe.cache.sequence.toNat + 1 < 2 ^ 32) :
    Survives (config.owner auth) m (c.step config step) := by
  have hmeets := hdurable.meets step
  have hsurvives : Survives (config.owner auth) m (c.meets step) :=
    ⟨h.retained, h.sequence, h.dirty⟩
  unfold Client.step
  cases hcall : step.call with
  | fetchToday =>
    exact hsurvives.callEnd hmeets (callEnd_vibeFetchToday hstep.account hdurable.ids) htears hbound
  | beginReconcile includeToday =>
    exact hsurvives.callEnd hmeets (callEnd_vibeBeginReconcile includeToday hdurable.ids) htears
      hbound
  | reconcile =>
    exact hsurvives.callEnd hmeets (callEnd_vibeReconcile hstep.account hdurable.ids) htears hbound
  | restart =>
    have hworking : Working (c.meets step).powerUp.board := ⟨rfl, hstep.restart hcall⟩
    obtain ⟨-, hboard, hcache⟩ := vibeInit_spec hworking hmeets.credential htake
    exact .loaded (b := (c.meets step).powerUp.board) h.retained hdurable.placed hboard hcache

/-- **A run** loses nothing. -/
theorem Survives.run {m : VibeCache} {steps : List ClientStep}
    (h : Survives (config.owner auth) m c) (hdurable : Durable auth (config.owner auth) c)
    (hsteps : ∀ step ∈ steps, step.Ordinary) (htake : (takeConfig config .zero).isSome = true)
    (htears : TearsCovered config c steps)
    (hbound : c.vibe.cache.sequence.toNat + steps.length < 2 ^ 32) :
    Survives (config.owner auth) m (c.run config steps) := by
  induction steps generalizing c with
  | nil => exact h
  | cons step steps ih =>
    rw [List.length_cons] at hbound
    have hordinary := hsteps step (List.mem_cons_self ..)
    obtain ⟨hone, hle⟩ := hdurable.step hordinary htake (by omega)
    exact ih (h.step hdurable hordinary htake htears.1 (by omega)) hone
      (fun step hmem ↦ hsteps step (List.mem_cons_of_mem _ hmem)) htears.2 (by omega)

/-- The newest snapshot, once it is persisted, survives in every run that follows. -/
def Owner.KeepsPersisted (owner : Owner) (c c' : Client) : Prop :=
  c.vibe.cache.persisted = true →
    ∃ m, owner.newest c.board.flash = some m ∧ owner.Retains m c'.board.flash

/-- **A persisted snapshot is kept**: in every run of fetches, passes and restarts from a start, as
long as a write is torn only in a call that began with a persisted cache, a start at any later
moment finds the snapshot that was last persisted, or a newer one. -/
theorem persisted_snapshot_kept {c : Client} {config : VibeConfig} {auth : AuthRecord} {n : ℕ}
    (hcredential : Credential auth c.board.flash)
    (hplaced : (config.owner auth).Placed c.board.flash n)
    (htake : (takeConfig config .zero).isSome = true) {earlier later : List ClientStep}
    (hsteps : ∀ step ∈ earlier ++ later, step.Ordinary)
    (htears : TearsCovered config ((c.start config).run config earlier) later)
    (hbound : n + (earlier ++ later).length < 2 ^ 32) :
    (config.owner auth).KeepsPersisted ((c.start config).run config earlier)
      ((c.start config).run config (earlier ++ later)) := by
  intro hpersisted
  rw [List.length_append] at hbound
  obtain ⟨hstart, hle⟩ := durable_start hcredential hplaced htake
  obtain ⟨hdurable, hle'⟩ := hstart.run
    (fun step hmem ↦ hsteps step (List.mem_append_left _ hmem)) htake (by omega)
  obtain ⟨m, hnewest, hagrees⟩ := hdurable.honest hpersisted
  have hsurvives : Survives (config.owner auth) m ((c.start config).run config earlier) := by
    refine ⟨⟨m, hnewest, .inl rfl⟩, ?_, fun hdirty ↦ ?_⟩
    · rw [hagrees.sequence]
      exact UInt32.le_refl _
    · rw [hpersisted] at hdirty
      cases hdirty
  have hend := hsurvives.run hdurable
    (fun step hmem ↦ hsteps step (List.mem_append_right _ hmem)) htake htears (by omega)
  refine ⟨m, hnewest, ?_⟩
  rw [show (c.start config).run config (earlier ++ later) =
    ((c.start config).run config earlier).run config later from List.foldl_append]
  exact hend.retained

end Steps

/-- The persisted day is kept, though the next write is torn. -/
theorem persisted_snapshot_kept_sample :
    (sampleEnd (persistedRun ++ tornRun)).board.flash.lookup .vibeCache .cacheA = some .torn ∧
    (∃ m, (sampleConfig.owner sampleAuth).newest (sampleEnd persistedRun).board.flash = some m ∧
      (sampleConfig.owner sampleAuth).Retains m
        (sampleEnd (persistedRun ++ tornRun)).board.flash) ∧
    (vibeCacheFindDay (sampleEnd (persistedRun ++ tornRun)).vibe.cache 20260715).map
      (·.totalTokens) = some 42 := by
  have hpersisted := sampleEnd_runs.1.1
  have hsteps : ∀ step ∈ persistedRun ++ tornRun, step.Ordinary :=
    List.forall_mem_append.2 ⟨ordinary_persistedRun, ordinary_tornRun⟩
  have htears : TearsCovered sampleConfig (sampleEnd persistedRun) tornRun := by
    refine ⟨fun _ ↦ hpersisted, ?_, trivial⟩
    rintro ⟨k, hk⟩
    cases hk
  have hkeeps := persisted_snapshot_kept credential_sampleClient placed_sampleClient (by decide)
    hsteps htears (by decide)
  refine ⟨sampleEnd_runs.2.1, ?_, sampleEnd_runs.2.2.2⟩
  unfold sampleEnd at hpersisted ⊢
  exact hkeeps hpersisted

end VibeUsage
