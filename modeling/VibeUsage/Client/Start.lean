import VibeUsage.Storage.CacheSlots

/-!
# What a start loads

`vibe_init` on a storage that works, for a device that holds a credential: it leaves the flash alone
and loads the newest cache of the account and the configuration, or an empty one (`vibeInit_spec`).

What the flash holds for the owner is `Owner.newest`, a function of the flash alone, so a start that
follows any run can be stated without the run. `starting_loadCache` says that the store finds it.
-/

namespace VibeUsage

/-! ### The credential -/

/-- The flash holds the credential. -/
structure Credential (auth : AuthRecord) (flash : Flash) : Prop where
  blob : ∃ bytes, flash.lookup .vibeAuth .auth = some (.blob bytes) ∧ decodeAuth bytes = .ok auth
  linked : auth.tombstone = false

/-- Whom a client with this credential and this configuration works for. -/
def VibeConfig.owner (config : VibeConfig) (auth : AuthRecord) : Owner :=
  ⟨auth.generation, orDefault config.configRevision 1, config.timezone⟩

/-- An account that is decoded is there and has a generation. -/
theorem decodeAuth_eq_ok {bytes : List UInt8} {auth : AuthRecord}
    (h : decodeAuth bytes = .ok auth) :
    bytes.length ≤ authBlobMaxBytes ∧ auth.present = true ∧ auth.generation ≠ 0 := by
  unfold decodeAuth at h
  split at h
  · cases h
  rename_i hsize
  split at h
  · cases h
  split at h
  · cases h
  dsimp only at h
  split at h
  · cases h
  rename_i hfields
  obtain rfl := Except.ok.inj h
  push Not at hsize hfields
  exact ⟨hsize.2.1, rfl, hfields.2.2⟩

section Start

variable {config : VibeConfig} {auth : AuthRecord} {b : Board}

/-- The account is loaded from a storage that works. -/
theorem loadAuth_of_working (h : Working b) (hcredential : Credential auth b.flash) :
    (vibeStoreLoadAuth b).1 = .ok auth := by
  obtain ⟨bytes, hlookup, hdecode⟩ := hcredential.blob
  have hblob : b.flash.blob .vibeAuth .auth = some bytes := by
    unfold Flash.blob
    rw [hlookup]
  have hthere : (b.flash .vibeAuth).isSome = true := by
    unfold Flash.lookup at hlookup
    cases hspace : b.flash .vibeAuth with
    | none => rw [hspace] at hlookup; cases hlookup
    | some entries => rfl
  have hopen : nvsOpenReadOnly .vibeAuth b = (.ok (), b.leaves b.flash) := by
    rw [openReadOnly_of_working h, if_pos hthere]
  have hread {b' : Board} (h' : Working b') (hflash : b'.flash = b.flash) :
      nvsGetBlob .vibeAuth .auth b' = (.ok bytes, b'.leaves b.flash) := by
    obtain ⟨result, hget, hresult⟩ := getBlob_of_working h' .vibeAuth .auth
    rw [hflash] at hget hresult
    rw [hget]
    rw [hblob] at hresult
    cases result with
    | error error => cases hresult
    | ok other => rw [Option.some.inj hresult]
  have h₁ := h.leaves b.flash
  have hmalloc : malloc ((b.leaves b.flash).leaves b.flash) =
      (.ok (), ((b.leaves b.flash).leaves b.flash).leaves b.flash) :=
    malloc_of_working (h₁.leaves b.flash)
  rw [vibeStoreLoadAuth, Prog.bind_of_ok hopen, Prog.bind_of_ok (hread h₁ rfl),
    Prog.check_of_pos (decodeAuth_eq_ok hdecode).1, Prog.bind_of_ok (Prog.pure_apply () _),
    Prog.bind_of_ok hmalloc, Prog.bind_of_ok (hread ((h₁.leaves _).leaves _) rfl), hdecode]
  rfl

/-! ### The start -/

/-- The client while it starts. -/
structure Starting (b : Board) (R : VibeContext → Prop) (c : Client) : Prop where
  working : Working c.board
  board : Within (fun _ _ ↦ False) b c.board
  vibe : R c.vibe

/-- A start only reads, up to the cache. -/
theorem Starting.stored {α : Type} {p : Nvs α} {R : VibeContext → Prop} {c : Client}
    (h : Starting b R c) (hp : Prog.Moves (Within fun _ _ ↦ False) p) :
    Starting b R (stored p c).2 :=
  ⟨h.working.of_within (hp c.board), trans_of (Within _) h.board (hp c.board), h.vibe⟩

/-- The context has the timezone and the revision of the configuration. -/
structure Configured (config : VibeConfig) (g : VibeContext) : Prop where
  timezone : g.timezone = config.timezone
  revision : g.configRevision = orDefault config.configRevision 1

/-- What `vibe_init` takes from the configuration. -/
theorem takeConfig_configured {g g' : VibeContext} (h : takeConfig config g = some g') :
    Configured config g' := by
  simp only [takeConfig, Option.bind_eq_bind, Option.bind_eq_some_iff] at h
  obtain ⟨bootstrapOrigin, -, clientName, -, hostname, -, h⟩ := h
  split at h
  · cases h
  · cases h
    exact ⟨rfl, rfl⟩

/-- The cache that is loaded: the owner's newest one, or an empty one. -/
def loadedCache (owner : Owner) (flash : Flash) : VibeCache :=
  (owner.newest flash).getD (vibeCacheInit owner.generation owner.configRevision owner.timezone)

/-- What does not touch the slots leaves the newest. -/
theorem Owner.newest_of_within {touched : Entries} {b b' : Board} (h : Within touched b b')
    (hfirst : ¬ touched .vibeCache .cacheA) (hsecond : ¬ touched .vibeCache .cacheB)
    (owner : Owner) : owner.newest b'.flash = owner.newest b.flash := by
  unfold Owner.newest
  rw [Owner.slot_congr (h.lookup _ _ hfirst), Owner.slot_congr (h.lookup _ _ hsecond)]

/-- The deadline is loaded. -/
theorem starting_loadRetry (R : EspErr → Client → Prop) :
    Prog.Triple (Starting b (Configured config)) loadRetry
      (fun _ ↦ Starting b (Configured config)) R := by
  intro c h
  have hload := h.stored moves_loadRetryNotBefore
  cases hresult : (vibeStoreLoadRetryNotBefore c.board).1 with
  | ok utcSeconds =>
    rw [loadRetry, Prog.bind_of_ok (attempt_stored hresult)]
    exact ⟨hload.working, hload.board, ⟨h.vibe.timezone, h.vibe.revision⟩⟩
  | error error =>
    rw [loadRetry, Prog.bind_of_ok (attempt_stored hresult)]
    exact ⟨hload.working, hload.board, ⟨h.vibe.timezone, h.vibe.revision⟩⟩

/-- The account is loaded as it was written. -/
theorem starting_loadAuth (hcredential : Credential auth b.flash) (R : EspErr → Client → Prop) :
    Prog.Triple (Starting b (Configured config)) (loadAuth config)
      (fun _ ↦ Starting b fun g ↦ Configured config g ∧ g.auth = auth) R := by
  intro c h
  have hload := h.stored moves_loadAuth
  obtain ⟨bytes, hlookup, hdecode⟩ := hcredential.blob
  have hauth := loadAuth_of_working h.working
    ⟨⟨bytes, (h.board.lookup _ _ id).trans hlookup, hdecode⟩, hcredential.linked⟩
  rw [loadAuth, Prog.bind_of_ok (attempt_stored hauth)]
  refine ⟨hload.working, hload.board, ⟨h.vibe.timezone, h.vibe.revision⟩, ?_⟩
  show { auth with generation := orDefault auth.generation 1 } = auth
  rw [orDefault, if_neg (decodeAuth_eq_ok hdecode).2.2]

/-- **The newest compatible slot** is what a start finds. -/
theorem starting_loadCache (hpresent : auth.present = true) (hlinked : auth.tombstone = false)
    (R : EspErr → Client → Prop) :
    Prog.Triple (Starting b fun g ↦ Configured config g ∧ g.auth = auth) loadCache
      (fun _ ↦ Starting b fun g ↦ g.cache = loadedCache (config.owner auth) b.flash) R := by
  rintro c ⟨hworking, hboard, ⟨htimezone, hrevision⟩, hauth⟩
  have hload := Starting.stored (R := fun _ ↦ True) ⟨hworking, hboard, trivial⟩
    (moves_loadCache auth (orDefault config.configRevision 1) config.timezone)
  have hfound : (vibeStoreLoadCache auth (orDefault config.configRevision 1) config.timezone
      c.board).1.toOption = (config.owner auth).newest c.board.flash :=
    loadCache_of_working hworking hpresent hlinked (orDefault config.configRevision 1)
      config.timezone
  rw [Owner.newest_of_within hboard id id] at hfound
  rw [loadCache, Prog.bind_of_ok (getVibe_apply c), hauth, hlinked, htimezone, hrevision,
    if_neg Bool.false_ne_true]
  unfold loadedCache
  cases hresult : (vibeStoreLoadCache auth (orDefault config.configRevision 1) config.timezone
      c.board).1 with
  | ok cache =>
    rw [Prog.bind_of_ok (attempt_stored hresult), ← hfound, hresult]
    exact ⟨hload.working, hload.board, rfl⟩
  | error error =>
    rw [Prog.bind_of_ok (attempt_stored hresult), ← hfound, hresult]
    refine ⟨hload.working, hload.board, ?_⟩
    show vibeCacheInit c.vibe.auth.generation c.vibe.configRevision c.vibe.timezone = _
    rw [hauth, htimezone, hrevision]
    rfl

/-- **A start** leaves the flash alone and loads the owner's newest cache. -/
theorem vibeInit_spec {c : Client} (h : Working c.board)
    (hcredential : Credential auth c.board.flash)
    (htake : (takeConfig config c.vibe).isSome = true) :
    Starting c.board (fun g ↦ g.cache = loadedCache (config.owner auth) c.board.flash)
      (vibeInit config c).2 := by
  obtain ⟨g, hg⟩ := Option.isSome_iff_exists.1 htake
  obtain ⟨bytes, -, hdecode⟩ := hcredential.blob
  obtain ⟨-, hpresent, -⟩ := decodeAuth_eq_ok hdecode
  have hrest (g : VibeContext) (hconfigured : Configured config g) :
      Prog.Triple (fun d ↦ d = c) (do
        setVibe fun _ ↦ g
        loadRetry
        loadAuth config
        loadCache
        setVibe fun g ↦
          { g with lastCacheWriteAt := newestCacheTimestamp g.cache, initialized := true } :
        Vibe Unit)
        (fun _ ↦ Starting c.board fun g ↦ g.cache = loadedCache (config.owner auth) c.board.flash)
        fun _ ↦ Starting c.board fun g ↦
          g.cache = loadedCache (config.owner auth) c.board.flash := by
    refine .bind (M := fun _ ↦ Starting c.board (Configured config)) ?_ fun _ ↦
      .bind (starting_loadRetry _) fun _ ↦ .bind (starting_loadAuth hcredential _) fun _ ↦
      .bind (starting_loadCache hpresent hcredential.linked _) fun _ d hd ↦
      ⟨hd.working, hd.board, hd.vibe⟩
    rintro d rfl
    exact ⟨h, refl_of (Within _) _, hconfigured⟩
  rw [vibeInit, Prog.bind_of_ok (getVibe_apply c), hg]
  exact Prog.Leads.of_triple (hrest g (takeConfig_configured hg)) c rfl

end Start

/-! ### A device that has been linked -/

/-- A credential. -/
def sampleAuth : AuthRecord :=
  ⟨true, false, 1, .ofBytes (httpsScheme ++ ascii ['a', 'p', 'i']), .ofBytes [0x6B]⟩

/-- A device that has just been linked. -/
def sampleClient : Client := { Client.zero with
  clock := fun _ ↦ 1784073600
  board := { Client.zero.board with
    flash := Flash.blank.put .vibeAuth .auth
      (.blob (authBody sampleAuth ++ Codec.u32 (vibeCrc32 (authBody sampleAuth)))) } }

theorem credential_sampleClient : Credential sampleAuth sampleClient.board.flash := by
  have hstorable : sampleAuth.Storable := ⟨by decide, by decide⟩
  refine ⟨⟨authBody sampleAuth ++ Codec.u32 (vibeCrc32 (authBody sampleAuth)), ?_, ?_⟩, rfl⟩
  · simp [sampleClient]
  · exact decodeAuth_of_encodeAuth (encodeAuth_eq_ok.2 ⟨hstorable, rfl⟩)

end VibeUsage
