import VibeUsage.Aggregate
import VibeUsage.Date
import VibeUsage.Lib.Codec
import VibeUsage.Lib.Insertion
import VibeUsage.Lib.Slots

/-!
# The rolling cache

`vibe_cache.c`: eight unordered day slots that count tokens by an index into a dictionary of 24
source ids, the last of which is `__other__`; the checks a cache must pass before it is written and
after it is read; the replacement of a day; the snapshot of a day or a week; and the blob.

The arrays of the C structs are vectors. A `char[48]` is the string it holds, and one that has no
terminator is represented by a string of 48 bytes or more, which is what `bounded_strlen` finds.

`vibeCacheReplaceDay` returns a code and a cache, as the C function changes its argument also on
some of its failures. The functions are in the order of the source. What holds of them is in the
modules beside this one, each of which takes one of the functions.
-/

namespace VibeUsage

/-- A `vibe_daily_slot_t`. -/
structure DailySlot where
  dateKey : Int32
  fetchedAt : Int64
  totalTokens : UInt64
  sourceTokens : Vector UInt64 sourceSlots
  valid : Bool
  hasAnyData : Bool
  sourcesCollapsed : Bool
  deriving DecidableEq

/-- A zeroed slot. -/
def DailySlot.zero : DailySlot where
  dateKey := 0
  fetchedAt := 0
  totalTokens := 0
  sourceTokens := .replicate sourceSlots 0
  valid := false
  hasAnyData := false
  sourcesCollapsed := false

/-- A `vibe_cache_t`. -/
structure VibeCache where
  schemaVersion : UInt32
  sequence : UInt32
  generation : UInt32
  configRevision : UInt32
  metricId : UInt32
  timezone : Timezone
  sourceIds : Vector CString sourceSlots
  days : Vector DailySlot cacheDays
  lastReconcileAt : Int64
  reconcileAnchorKey : Int32
  reconcilePendingMask : UInt8
  persisted : Bool
  deriving DecidableEq

/-- The index of `__other__` in the dictionary. -/
def otherIndex : Fin sourceSlots := ⟨sourceSlots - 1, by decide⟩

/-! ### Validation -/

/-- The sum of a day's tokens, while it stays in 64 bits. -/
def sumTokens (tokens : List UInt64) : Option UInt64 :=
  tokens.foldlM (fun sum tokens ↦ if uint64Max - sum < tokens then none else some (sum + tokens)) 0

def validHeader (cache : VibeCache) : Bool :=
  decide (cache.schemaVersion = cacheSchemaVersion ∧ cache.configRevision ≠ 0 ∧
    cache.metricId = metricIdApiTotalV1 ∧ cache.timezone.Supported ∧ 0 ≤ cache.lastReconcileAt ∧
    cache.reconcilePendingMask &&& ~~~0x7F = 0 ∧
    (cache.reconcileAnchorKey ≠ 0 → vibeDateIsValid cache.reconcileAnchorKey) ∧
    (cache.reconcilePendingMask ≠ 0 → cache.reconcileAnchorKey ≠ 0))

/-- The checks on one id: it is terminated, the last one is `__other__`, and no prior id is the
same. -/
def validSource (ids : Vector CString sourceSlots) (source : Fin sourceSlots) : Bool :=
  decide (ids[source].boundedStrlen sourceIdBytes < sourceIdBytes ∧
    (source = otherIndex → ids[source] = otherSourceId) ∧
    (ids[source].bytes ≠ [] → ∀ prior : Fin sourceSlots, prior < source →
      ids[prior].bytes ≠ [] → ids[prior] ≠ ids[source]))

/-- The checks on one slot: an unused one is zero; a used one has a date no prior slot has, a fetch
time, and a total that is the sum of tokens with ids. -/
def validDay (cache : VibeCache) (day : Fin cacheDays) : Bool :=
  let slot := cache.days[day]
  if ¬ slot.valid then
    decide (slot.dateKey = 0 ∧ slot.fetchedAt = 0 ∧ slot.totalTokens = 0 ∧ slot.hasAnyData = false ∧
      slot.sourcesCollapsed = false ∧ ∀ source : Fin sourceSlots, slot.sourceTokens[source] = 0)
  else
    decide (vibeDateIsValid slot.dateKey ∧ 0 < slot.fetchedAt ∧
      (∀ prior : Fin cacheDays, prior < day →
        cache.days[prior].valid → cache.days[prior].dateKey ≠ slot.dateKey) ∧
      (∀ source : Fin sourceSlots, cache.sourceIds[source].bytes = [] →
        slot.sourceTokens[source] = 0) ∧
      sumTokens slot.sourceTokens.toList = some slot.totalTokens)

/-- Every failure of `validate_cache` is `VIBE_ERR_SCHEMA`. -/
def validateCache (cache : VibeCache) : Bool :=
  validHeader cache && (List.finRange sourceSlots).all (validSource cache.sourceIds) &&
    (List.finRange cacheDays).all (validDay cache)

/-! ### Days -/

def vibeCacheInit (generation configRevision : UInt32) (timezone : Timezone) : VibeCache where
  schemaVersion := cacheSchemaVersion
  sequence := 0
  generation := generation
  configRevision := configRevision
  metricId := metricIdApiTotalV1
  timezone := timezone
  sourceIds := (Vector.replicate sourceSlots .empty).set (sourceSlots - 1) otherSourceId
  days := .replicate cacheDays .zero
  lastReconcileAt := 0
  reconcileAnchorKey := 0
  reconcilePendingMask := 0
  persisted := false

def vibeCacheFindDay (cache : VibeCache) (dateKey : Int32) : Option DailySlot :=
  cache.days.toList.find? fun slot ↦ slot.valid && slot.dateKey = dateKey

/-- The loop of `choose_slot`: the first slot that holds the date or is unused, or else the slot
with the smallest date. -/
def chooseSlotFrom (days : Vector DailySlot cacheDays) (dateKey : Int32) :
    List (Fin cacheDays) → (oldest : Fin cacheDays) → Fin cacheDays
  | [], oldest => oldest
  | i :: rest, oldest =>
    if days[i].valid ∧ days[i].dateKey = dateKey then i
    else if ¬ days[i].valid then i
    else chooseSlotFrom days dateKey rest
      (if days[i].dateKey < days[oldest].dateKey then i else oldest)

def chooseSlot (cache : VibeCache) (dateKey : Int32) : Fin cacheDays :=
  chooseSlotFrom cache.days dateKey (List.finRange cacheDays) ⟨0, by decide⟩

def sameDayValue (left right : DailySlot) : Bool :=
  decide (left.valid = right.valid ∧ left.dateKey = right.dateKey ∧
    left.totalTokens = right.totalTokens ∧ left.hasAnyData = right.hasAnyData ∧
    left.sourcesCollapsed = right.sourcesCollapsed ∧ left.sourceTokens = right.sourceTokens)

/-- The named indices, in order. -/
def namedIndices : List (Fin sourceSlots) :=
  (List.finRange sourceSlots).filter fun i ↦ i ≠ otherIndex

/-- The index of a source, with the dictionary that has it and the flag that says it did not fit:
the index it has, the first empty one, or that of `__other__`. -/
def dictionaryIndex (ids : Vector CString sourceSlots) (source : CString) (collapsed : Bool) :
    Vector CString sourceSlots × Fin sourceSlots × Bool :=
  if source = otherSourceId then (ids, otherIndex, collapsed)
  else
    match namedIndices.find? fun i ↦ ids[i] = source with
    | some i => (ids, i, collapsed)
    | none =>
      match namedIndices.find? fun i ↦ ids[i].bytes = [] with
      | some i => (ids.set i (source.strncpy (sourceIdBytes - 1)) i.isLt, i, collapsed)
      | none => (ids, otherIndex, true)

/-- The checks on the candidate: the ids are named and fit, and the total is their sum. -/
def checkSources : List SourceTotal → (sum : UInt64) → Except VibeError UInt64
  | [], sum => .ok sum
  | source :: sources, sum =>
    let length := source.id.boundedStrlen sourceIdBytes
    if length = 0 ∨ length ≥ sourceIdBytes then .error .schema
    else if uint64Max - sum < source.tokens then .error .overflow
    else checkSources sources (sum + source.tokens)

/-- The loop that distributes the sources of a candidate over the dictionary. The dictionary is the
cache's own, so it stays as it is when a slot overflows. -/
def placeSources : List SourceTotal → Vector CString sourceSlots → (next : DailySlot) →
    Vector CString sourceSlots × Except VibeError DailySlot
  | [], ids, next => (ids, .ok next)
  | source :: sources, ids, next =>
    let (ids, index, sourcesCollapsed) := dictionaryIndex ids source.id next.sourcesCollapsed
    if uint64Max - next.sourceTokens[index] < source.tokens then (ids, .error .overflow)
    else
      let sourceTokens := next.sourceTokens.set index (next.sourceTokens[index] + source.tokens)
        index.isLt
      placeSources sources ids { next with sourceTokens, sourcesCollapsed }

/-- The slot a candidate asks for, before its sources are placed. -/
def nextSlot (candidate : DayCandidate) (fetchedAt : Int64) : DailySlot :=
  { DailySlot.zero with
    dateKey := candidate.dateKey
    fetchedAt
    totalTokens := candidate.totalTokens
    valid := true
    hasAnyData := candidate.hasAnyData
    sourcesCollapsed := candidate.sourcesCollapsed }

/-- The last lines of `vibe_cache_replace_day`. -/
def storeDay (cache : VibeCache) (next : DailySlot) : VibeCache :=
  let index := chooseSlot cache next.dateKey
  let changed := ¬ sameDayValue cache.days[index] next
  { cache with
    days := cache.days.set index next index.isLt
    sequence := if changed then cache.sequence + 1 else cache.sequence
    persisted := if changed then false else cache.persisted }

def vibeCacheReplaceDay (cache : VibeCache) (candidate : DayCandidate) (fetchedAt : Int64) :
    Option VibeError × VibeCache :=
  if ¬ vibeDateIsValid candidate.dateKey ∨ fetchedAt ≤ 0 ∨
      candidate.sources.length > sourceSlots ∨ cache.schemaVersion ≠ cacheSchemaVersion ∨
      cache.metricId ≠ metricIdApiTotalV1 then (some .invalidArgument, cache)
  else
    match checkSources candidate.sources 0 with
    | .error error => (some error, cache)
    | .ok sum =>
      if sum ≠ candidate.totalTokens then (some .schema, cache)
      else
        let (sourceIds, next) :=
          placeSources candidate.sources cache.sourceIds (nextSlot candidate fetchedAt)
        let cache := { cache with sourceIds }
        match next with
        | .error error => (some error, cache)
        | .ok next => (none, storeDay cache next)

/-! ### The snapshot -/

/-- A `vibe_agent_usage_t`. -/
structure AgentUsage where
  id : CString
  todayTokens : UInt64
  sevenDayTokens : UInt64
  todayBp : UInt16
  sevenDayBp : UInt16
  deriving DecidableEq

/-- A `vibe_usage_snapshot_t`, with the `agent_count` rows in use as a list. -/
structure UsageSnapshot where
  schemaVersion : UInt32
  generation : UInt32
  todayKey : Int32
  todayTokens : UInt64
  sevenDayTokens : UInt64
  agents : List AgentUsage
  validDaysMask : UInt8
  todayComplete : Bool
  sevenDayComplete : Bool
  hasAnyData : Bool
  hasLkg : Bool
  timeValid : Bool
  persisted : Bool
  sourcesCollapsed : Bool
  lastFetchAt : Int64
  lastReconcileAt : Int64
  state : DataState
  deriving DecidableEq

/-- What the loop over the ages of a day gathers: the fields of the snapshot it writes, and the
tokens of each source. -/
structure Gathered where
  validDaysMask : UInt8
  hasLkg : Bool
  sevenDayTokens : UInt64
  todayTokens : UInt64
  todayComplete : Bool
  hasAnyData : Bool
  lastFetchAt : Int64
  todayBySource : Vector UInt64 sourceSlots
  sevenBySource : Vector UInt64 sourceSlots
  collapsed : Bool

def Gathered.zero : Gathered where
  validDaysMask := 0
  hasLkg := false
  sevenDayTokens := 0
  todayTokens := 0
  todayComplete := false
  hasAnyData := false
  lastFetchAt := 0
  todayBySource := .replicate sourceSlots 0
  sevenBySource := .replicate sourceSlots 0
  collapsed := false

/-- A stored day of the given age. -/
def gatherSlot (g : Gathered) (age : ℕ) (slot : DailySlot) : Except VibeError Gathered :=
  if uint64Max - g.sevenDayTokens < slot.totalTokens then .error .overflow
  else if ∃ source : Fin sourceSlots,
      uint64Max - g.sevenBySource[source] < slot.sourceTokens[source] then .error .overflow
  else
    .ok { g with
      validDaysMask := g.validDaysMask ||| 1 <<< UInt8.ofNat age
      hasLkg := true
      collapsed := g.collapsed || slot.sourcesCollapsed
      sevenDayTokens := g.sevenDayTokens + slot.totalTokens
      sevenBySource := g.sevenBySource.zipWith (· + ·) slot.sourceTokens
      todayBySource := if age = 0 then slot.sourceTokens else g.todayBySource
      todayTokens := if age = 0 then slot.totalTokens else g.todayTokens
      todayComplete := if age = 0 then true else g.todayComplete
      hasAnyData := if age = 0 then slot.hasAnyData else g.hasAnyData
      lastFetchAt := if age = 0 then slot.fetchedAt else g.lastFetchAt }

/-- The day `age` days before today. -/
def dayBefore (todayKey : Int32) (age : ℕ) : Except VibeError Int32 :=
  vibeDateAddDays todayKey (-Int32.ofNat age)

/-- The body of the loop over the ages. -/
def gatherAge (cache : VibeCache) (todayKey : Int32) (g : Gathered) (age : ℕ) :
    Except VibeError Gathered :=
  match dayBefore todayKey age with
  | .error error => .error error
  | .ok key =>
    match vibeCacheFindDay cache key with
    | none => .ok g
    | some slot => gatherSlot g age slot

/-- The loop over the ages. -/
def gatherDays (cache : VibeCache) (todayKey : Int32) (ages : List ℕ) (g : Gathered) :
    Except VibeError Gathered :=
  ages.foldlM (gatherAge cache todayKey) g

/-- A `ranked_source_t`. -/
structure RankedSource where
  dictionaryIndex : Fin sourceSlots
  today : UInt64
  seven : UInt64
  selected : UInt64
  deriving DecidableEq

def sourcePrecedes (ids : Vector CString sourceSlots) (left right : RankedSource) : Bool :=
  if left.selected ≠ right.selected then decide (left.selected > right.selected)
  else decide (ids[left.dictionaryIndex].strcmpLt ids[right.dictionaryIndex])

/-- The entry of a named source that has tokens in either window. -/
def rankedItem (ids : Vector CString sourceSlots) (g : Gathered) (window : Window)
    (source : Fin sourceSlots) : Option RankedSource :=
  if ids[source].bytes = [] ∨ (g.todayBySource[source] = 0 ∧ g.sevenBySource[source] = 0) then none
  else some
    { dictionaryIndex := source
      today := g.todayBySource[source]
      seven := g.sevenBySource[source]
      selected := match window with
        | .today => g.todayBySource[source]
        | .sevenDays => g.sevenBySource[source] }

/-- The insertion sort of the named sources. -/
def rankSources (ids : Vector CString sourceSlots) (g : Gathered) (window : Window) :
    List RankedSource :=
  (namedIndices.filterMap (rankedItem ids g window)).foldl (insertFromEnd (sourcePrecedes ids)) []

/-- A row of the snapshot. -/
def agentRow (g : Gathered) (id : CString) (today seven : UInt64) : AgentUsage where
  id := id.strncpy (sourceIdBytes - 1)
  todayTokens := today
  sevenDayTokens := seven
  todayBp := vibeBasisPoints today g.todayTokens
  sevenDayBp := vibeBasisPoints seven g.sevenDayTokens

/-- The tokens of the sources that are not shown, added to those of `__other__`. -/
def foldOther : List RankedSource → (otherToday otherSeven : UInt64) →
    Except VibeError (UInt64 × UInt64)
  | [], otherToday, otherSeven => .ok (otherToday, otherSeven)
  | item :: items, otherToday, otherSeven =>
    if uint64Max - otherToday < item.today ∨ uint64Max - otherSeven < item.seven then
      .error .overflow
    else foldOther items (otherToday + item.today) (otherSeven + item.seven)

def snapshotState (complete : Bool) (selectedTokens : UInt64) : DataState :=
  if ¬ complete then .stale else if selectedTokens = 0 then .empty else .ready

/-- A failing call leaves a snapshot half written; its callers discard it. -/
def vibeCacheBuildSnapshot (cache : VibeCache) (todayKey : Int32) (window : Window) :
    Except VibeError UsageSnapshot :=
  if ¬ vibeDateIsValid todayKey then .error .invalidArgument
  else
    match gatherDays cache todayKey (List.range 7) .zero with
    | .error error => .error error
    | .ok g =>
      let sevenDayComplete := decide (g.validDaysMask &&& 0x7F = 0x7F)
      let complete := match window with
        | .today => g.todayComplete
        | .sevenDays => sevenDayComplete
      let selectedTokens := match window with
        | .today => g.todayTokens
        | .sevenDays => g.sevenDayTokens
      let ranked := rankSources cache.sourceIds g window
      let visible := min ranked.length (maxAgents - 1)
      let named := (ranked.take visible).map fun item ↦
        agentRow g cache.sourceIds[item.dictionaryIndex] item.today item.seven
      match foldOther (ranked.drop visible) g.todayBySource[otherIndex]
          g.sevenBySource[otherIndex] with
      | .error error => .error error
      | .ok (otherToday, otherSeven) =>
        let agents :=
          if (otherToday ≠ 0 ∨ otherSeven ≠ 0) ∧ named.length < maxAgents then
            named ++ [agentRow g otherSourceId otherToday otherSeven]
          else named
        .ok
          { schemaVersion := schemaVersion
            generation := cache.generation
            todayKey
            todayTokens := g.todayTokens
            sevenDayTokens := g.sevenDayTokens
            agents
            validDaysMask := g.validDaysMask
            todayComplete := g.todayComplete
            sevenDayComplete
            hasAnyData := g.hasAnyData
            hasLkg := g.hasLkg || cache.days.toList.any fun slot ↦ slot.valid
            timeValid := true
            persisted := cache.persisted
            sourcesCollapsed := g.collapsed || decide (ranked.drop visible ≠ [])
            lastFetchAt := g.lastFetchAt
            lastReconcileAt := cache.lastReconcileAt
            state := snapshotState complete selectedTokens }

end VibeUsage
