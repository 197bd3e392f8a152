import VibeUsage.Candidate
import VibeUsage.Parser.Schema

/-!
# The members of a response, one name at a time

The schema reads the members of an object in order and writes a flag and a value for each name it
knows. Names do not get in each other's way, so the fold over the members is one fold for each name
over the values it has (`foldlM_fields`, `foldlM_root`), and such a fold succeeds with a value
exactly when the name has one value and that value can be read (`foldlM_once`).

`BucketFields` is what is known of a bucket so far. The order of the members does not matter, and a
member of another name is not looked at.
-/

namespace VibeUsage

open Rfc8259 (Token Value IsDigit)

/-! ### Names with one value -/

/-- Another value for a name that must come once: refused when it has one already. -/
def once {α : Type} (read : Value → Option α) (seen : Option α) (v : Value) : Option (Option α) :=
  if seen.isSome then none else (read v).map some

/-- A name that has its value takes no other. -/
theorem foldlM_once_some {α : Type} {read : Value → Option α} {vs : List Value} {a b : α} :
    vs.foldlM (once read) (some a) = some (some b) ↔ vs = [] ∧ a = b := by
  cases vs with
  | nil => simp
  | cons v vs => simp [once]

/-- **One value, and readable.** -/
theorem foldlM_once {α : Type} {read : Value → Option α} {vs : List Value} {a : α} :
    vs.foldlM (once read) none = some (some a) ↔ ∃ v, vs = [v] ∧ read v = some a := by
  cases vs with
  | nil => simp
  | cons v vs =>
    have honce : once read none v = (read v).map some := rfl
    rw [List.foldlM_cons, honce]
    cases hread : read v with
    | none => simp [hread]
    | some b =>
      show vs.foldlM (once read) (some b) = some (some a) ↔ _
      rw [foldlM_once_some]
      constructor
      · rintro ⟨rfl, rfl⟩
        exact ⟨v, rfl, hread⟩
      · rintro ⟨v', hvs, hv'⟩
        obtain ⟨rfl, rfl⟩ := List.cons.inj hvs
        rw [hread] at hv'
        exact ⟨rfl, Option.some.inj hv'⟩

/-- The values of a name among the members, in order. -/
def valuesOf (ms : List (List UInt8 × Value)) (key : CString) : List Value :=
  (ms.filter fun m ↦ m.1 = key.bytes).map fun m ↦ m.2

@[simp] theorem valuesOf_nil (key : CString) : valuesOf [] key = [] := rfl

/-- A member of the name adds its value. -/
theorem valuesOf_cons_of_eq {m : List UInt8 × Value} {ms : List (List UInt8 × Value)}
    {key : CString} (h : m.1 = key.bytes) : valuesOf (m :: ms) key = m.2 :: valuesOf ms key := by
  simp [valuesOf, h]

/-- A member of another name adds none. -/
theorem valuesOf_cons_of_ne {m : List UInt8 × Value} {ms : List (List UInt8 × Value)}
    {key : CString} (h : m.1 ≠ key.bytes) : valuesOf (m :: ms) key = valuesOf ms key := by
  simp [valuesOf, h]

/-! ### The fields of a bucket -/

/-- The fields of a bucket that have been read: the id it is counted under with the flag that says
the source was too long, the text of its start, and its tokens. -/
structure BucketFields where
  source : Option (Bool × CString)
  start : Option CString
  total : Option UInt64

/-- No field yet. -/
def BucketFields.unread : BucketFields := ⟨none, none, none⟩

def readSource : Value → Option (Bool × CString)
  | .string s =>
    if 0 ∈ s.take (parserTokenBytes - 1) ∨ s = [] then none
    else if s.length ≥ sourceIdBytes then some (true, otherSourceId)
    else some (false, .ofBytes s)
  | _ => none

def readStart : Value → Option CString
  | .string s => if 0 ∈ s ∨ s = [] ∨ s.length ≥ bucketStartBytes then none else some (.ofBytes s)
  | _ => none

def readTotal : Value → Option UInt64
  | .number n => (parseU64Digits n 0).toOption.map UInt64.ofNat
  | _ => none

/-- One member of a bucket. -/
def BucketFields.member (f : BucketFields) (m : List UInt8 × Value) : Option BucketFields :=
  if m.1 = keySource.bytes then
    (once readSource f.source m.2).map fun source ↦ { f with source }
  else if m.1 = keyBucketStart.bytes then
    (once readStart f.start m.2).map fun start ↦ { f with start }
  else if m.1 = keyTotalTokens.bytes then
    (once readTotal f.total m.2).map fun total ↦ { f with total }
  else some f

/-- The parser's own record of the fields. -/
def Grammar.withFields (g : Grammar) (f : BucketFields) : Grammar :=
  { g with
    bucketSeenSource := f.source.isSome
    bucketSourceOther := (f.source.map Prod.fst).getD false
    bucketSource := (f.source.map Prod.snd).getD .empty
    bucketSeenStart := f.start.isSome
    bucketStart := f.start.getD .empty
    bucketSeenTotal := f.total.isSome
    bucketTotal := f.total.getD 0 }

/-- A member of a bucket changes the fields, and nothing else of the parser. -/
theorem bucketMember_withFields (g : Grammar) (f : BucketFields) (m : List UInt8 × Value) :
    bucketMember (g.withFields f) m.1 m.2 = (f.member m).map g.withFields := by
  obtain ⟨k, v⟩ := m
  unfold bucketMember BucketFields.member
  dsimp only
  by_cases hsource : k = keySource.bytes
  · rw [if_pos hsource, if_pos hsource]
    -- A member that comes twice is refused, of whatever kind it is.
    cases hseen : f.source with
    | some seen => cases v <;> simp [Grammar.withFields, once, hseen]
    | none =>
      cases v with
      | string s =>
        by_cases hbad : 0 ∈ s.take (parserTokenBytes - 1) ∨ s = []
        · simp [Grammar.withFields, once, hseen, readSource, hbad]
        · by_cases hlong : s.length ≥ sourceIdBytes <;>
            simp [Grammar.withFields, once, hseen, readSource, hbad, hlong]
      | _ => simp [once, readSource]
  rw [if_neg hsource, if_neg hsource]
  by_cases hstart : k = keyBucketStart.bytes
  · rw [if_pos hstart, if_pos hstart]
    cases hseen : f.start with
    | some seen => cases v <;> simp [Grammar.withFields, once, hseen]
    | none =>
      cases v with
      | string s =>
        by_cases hbad : 0 ∈ s ∨ s = [] ∨ s.length ≥ bucketStartBytes <;>
          simp [Grammar.withFields, once, hseen, readStart, hbad]
      | _ => simp [once, readStart]
  rw [if_neg hstart, if_neg hstart]
  by_cases htotal : k = keyTotalTokens.bytes
  · rw [if_pos htotal, if_pos htotal]
    cases hseen : f.total with
    | some seen => cases v <;> simp [Grammar.withFields, once, hseen]
    | none =>
      cases v with
      | number n =>
        cases hparse : parseU64Digits n 0 <;>
          simp [Grammar.withFields, once, hseen, readTotal, hparse, Except.toOption]
      | _ => simp [once, readTotal]
  rw [if_neg htotal, if_neg htotal]
  rfl

/-- **The members of a bucket**, in order, are read into the fields. -/
theorem foldlM_bucketMember (g : Grammar) (ms : List (List UInt8 × Value)) :
    ∀ f : BucketFields, ms.foldlM (fun g m ↦ bucketMember g m.1 m.2) (g.withFields f) =
      (ms.foldlM BucketFields.member f).map g.withFields := by
  induction ms with
  | nil => intro f; rfl
  | cons m ms ih =>
    intro f
    rw [List.foldlM_cons, List.foldlM_cons, bucketMember_withFields]
    cases f.member m with
    | none => rfl
    | some f' => exact ih f'

/-- **The members of a bucket, name by name.** -/
theorem foldlM_fields {ms : List (List UInt8 × Value)} :
    ∀ {f f' : BucketFields}, ms.foldlM BucketFields.member f = some f' ↔
      (valuesOf ms keySource).foldlM (once readSource) f.source = some f'.source ∧
      (valuesOf ms keyBucketStart).foldlM (once readStart) f.start = some f'.start ∧
      (valuesOf ms keyTotalTokens).foldlM (once readTotal) f.total = some f'.total := by
  induction ms with
  | nil =>
    intro f f'
    obtain ⟨a, b, c⟩ := f
    obtain ⟨a', b', c'⟩ := f'
    simp
  | cons m ms ih =>
    intro f f'
    rw [List.foldlM_cons]
    unfold BucketFields.member
    by_cases hsource : m.1 = keySource.bytes
    · have hstart : m.1 ≠ keyBucketStart.bytes := by rw [hsource]; decide
      have htotal : m.1 ≠ keyTotalTokens.bytes := by rw [hsource]; decide
      rw [if_pos hsource, valuesOf_cons_of_eq hsource, valuesOf_cons_of_ne hstart,
        valuesOf_cons_of_ne htotal, List.foldlM_cons]
      cases once readSource f.source m.2 with
      | none => simp
      | some source => exact ih
    rw [if_neg hsource, valuesOf_cons_of_ne hsource]
    by_cases hstart : m.1 = keyBucketStart.bytes
    · have htotal : m.1 ≠ keyTotalTokens.bytes := by rw [hstart]; decide
      rw [if_pos hstart, valuesOf_cons_of_eq hstart, valuesOf_cons_of_ne htotal, List.foldlM_cons]
      cases once readStart f.start m.2 with
      | none => simp
      | some start => exact ih
    rw [if_neg hstart, valuesOf_cons_of_ne hstart]
    by_cases htotal : m.1 = keyTotalTokens.bytes
    · rw [if_pos htotal, valuesOf_cons_of_eq htotal, List.foldlM_cons]
      cases once readTotal f.total m.2 with
      | none => simp
      | some total => exact ih
    rw [if_neg htotal, valuesOf_cons_of_ne htotal]
    exact ih

/-! ### The items of the bucket array -/

/-- What the parser was set up with. -/
structure Request where
  date : Int32
  timezone : Timezone
  maxBuckets : UInt32

def Grammar.request (g : Grammar) : Request := ⟨g.targetDateKey, g.timezone, g.maxBuckets⟩

/-- `finish_bucket`, on the fields alone. -/
def finishFields (request : Request) (c : DayCandidate) (f : BucketFields) :
    Option DayCandidate :=
  match f with
  | ⟨some (_, id), some start, some total⟩ =>
    if id.bytes = [] ∨ vibeIso8601ToDate start request.timezone ≠ .ok request.date ∨
        c.bucketCount ≥ request.maxBuckets then none
    else
      match vibeDayCandidateAdd c id total with
      | (none, c') => some c'
      | (some _, _) => none
  | _ => none

/-- An item of the bucket array, on the candidate alone. -/
def addItem (request : Request) (c : DayCandidate) (v : Value) : Option DayCandidate :=
  match v with
  | .object ms => (ms.foldlM BucketFields.member .unread).bind (finishFields request c)
  | _ => none

/-- The fields of a bucket agree with its flag. -/
def BucketFields.Flagged (f : BucketFields) : Prop :=
  ∀ id, f.source = some (true, id) → id = otherSourceId

/-- The flag says at every member whether the source was too long. -/
theorem flagged_member {f f' : BucketFields} {m : List UInt8 × Value} (h : f.Flagged)
    (hm : f.member m = some f') : f'.Flagged := by
  unfold BucketFields.member at hm
  split at hm
  · unfold once at hm
    split at hm
    · cases hm
    · obtain ⟨source, hsource, rfl⟩ := Option.map_eq_some_iff.1 hm
      obtain ⟨r, hr, rfl⟩ := Option.map_eq_some_iff.1 hsource
      intro id hid
      obtain rfl := Option.some.inj hid
      unfold readSource at hr
      split at hr
      · split at hr
        · cases hr
        · split at hr
          · exact (Prod.mk.inj (Option.some.inj hr)).2.symm
          · cases hr
      · cases hr
  · split at hm
    · obtain ⟨_, -, rfl⟩ := Option.map_eq_some_iff.1 hm
      exact h
    · split at hm
      · obtain ⟨_, -, rfl⟩ := Option.map_eq_some_iff.1 hm
        exact h
      · obtain rfl := Option.some.inj hm
        exact h

/-- So it does at the end of the bucket. -/
theorem flagged_foldlM {ms : List (List UInt8 × Value)} :
    ∀ {f f' : BucketFields}, f.Flagged → ms.foldlM BucketFields.member f = some f' →
      f'.Flagged := by
  induction ms with
  | nil =>
    intro f f' h hf
    obtain rfl := Option.some.inj hf
    exact h
  | cons m ms ih =>
    intro f f' h hf
    rw [List.foldlM_cons] at hf
    obtain ⟨f₁, hm, hms⟩ := Option.bind_eq_some_iff.1 hf
    exact ih (flagged_member h hm) hms

/-- The candidate replaced, and no bucket under way. -/
def Grammar.withCandidate (g : Grammar) (c : DayCandidate) : Grammar :=
  resetBucket { g with candidate := c }

/-- The end of a bucket, on its fields alone. -/
theorem finishBucket_withFields (g : Grammar) {f : BucketFields} (hf : f.Flagged) :
    (finishBucket (g.withFields f)).toOption.map resetBucket =
      (finishFields g.request g.candidate f).map g.withCandidate := by
  obtain ⟨source, start, total⟩ := f
  cases source with
  | none => rfl
  | some source =>
    obtain ⟨other, id⟩ := source
    cases start with
    | none => rfl
    | some start =>
      cases total with
      | none => rfl
      | some total =>
        -- the flagged id is `__other__` already
        have hid : (if other = true then otherSourceId else id) = id := by
          cases other with
          | false => rfl
          | true => exact (hf id rfl).symm
        unfold finishBucket finishFields
        simp only [Grammar.withFields, Option.isSome_some, Option.map_some, Option.getD_some,
          not_true, false_or, Grammar.request]
        by_cases hempty : id.bytes = []
        · simp [hempty, Except.toOption]
        simp only [hempty, if_false, false_or]
        cases hdate : vibeIso8601ToDate start g.timezone with
        | error e => simp [Except.toOption]
        | ok date =>
          by_cases hne : date ≠ g.targetDateKey
          · simp [hne, Except.toOption]
          have hne : date = g.targetDateKey := Decidable.not_not.1 hne
          by_cases hcount : g.candidate.bucketCount ≥ g.maxBuckets
          · simp [hne, hcount, Except.toOption]
          simp only [hne, ne_eq, not_true, if_false, hcount, false_or]
          have hsame : (match vibeDayCandidateAdd g.candidate
              (if other = true then otherSourceId else id) total with
            | (none, candidate) => .ok { g.withFields ⟨some (other, id), some start, some total⟩
                with candidate }
            | (some error, _) => .error error : Except VibeError Grammar) =
              match vibeDayCandidateAdd g.candidate id total with
              | (none, candidate) => .ok { g.withFields ⟨some (other, id), some start, some total⟩
                  with candidate }
              | (some error, _) => .error error := by rw [hid]
          refine (congrArg (fun r ↦ (Except.toOption r).map resetBucket) hsame).trans ?_
          obtain ⟨e, c⟩ := vibeDayCandidateAdd g.candidate id total
          cases e <;> rfl

/-- An item of the bucket array, on the candidate alone. -/
theorem bucketItem_request (g : Grammar) (v : Value) :
    (bucketItem g v).map resetBucket =
      (addItem g.request g.candidate v).map g.withCandidate := by
  cases v with
  | object ms =>
    show (Option.bind (ms.foldlM (fun g m ↦ bucketMember g m.1 m.2) (g.withFields .unread))
      fun g ↦ (finishBucket g).toOption).map resetBucket = _
    rw [foldlM_bucketMember, addItem]
    cases hf : ms.foldlM BucketFields.member .unread with
    | none => rfl
    | some f =>
      have hflagged : f.Flagged := flagged_foldlM (by intro id h; cases h) hf
      exact finishBucket_withFields g hflagged
  | _ => rfl

/-- A bucket that is over has left nothing but the candidate. -/
theorem withCandidate_of_reset {g g' : Grammar} {c c' : DayCandidate}
    (h : resetBucket g' = g.withCandidate c) : g'.withCandidate c' = g.withCandidate c' := by
  have hcongr := congrArg (fun g : Grammar ↦ g.withCandidate c') h
  exact hcongr

/-- **The items of the bucket array**, in order, are added to the candidate. -/
theorem foldlM_bucketItem (vs : List Value) : ∀ g : Grammar,
    (vs.foldlM bucketItem g).map resetBucket =
      (vs.foldlM (addItem g.request) g.candidate).map g.withCandidate := by
  induction vs with
  | nil => intro g; rfl
  | cons v vs ih =>
    intro g
    rw [List.foldlM_cons, List.foldlM_cons]
    have hitem := bucketItem_request g v
    cases hg : bucketItem g v with
    | none =>
      rw [hg] at hitem
      cases hc : addItem g.request g.candidate v with
      | none => rfl
      | some c => rw [hc] at hitem; cases hitem
    | some g' =>
      rw [hg] at hitem
      cases hc : addItem g.request g.candidate v with
      | none => rw [hc] at hitem; cases hitem
      | some c =>
        rw [hc] at hitem
        have hreset : resetBucket g' = g.withCandidate c := Option.some.inj hitem
        have hrequest := congrArg Grammar.request hreset
        have hcandidate := congrArg Grammar.candidate hreset
        refine (ih g').trans ?_
        show Option.map _
            (vs.foldlM (addItem (resetBucket g').request) (resetBucket g').candidate) =
          Option.map _ (vs.foldlM (addItem g.request) c)
        rw [hrequest, hcandidate]
        refine congrArg (fun r ↦ Option.map r (vs.foldlM (addItem g.request) c)) ?_
        funext c'
        exact withCandidate_of_reset hreset

/-! ### The members of the root -/

/-- The members of the root that have been read: the candidate the buckets made, and the flag. -/
structure RootFields where
  buckets : Option DayCandidate
  hasAnyData : Option Bool

def RootFields.unread : RootFields := ⟨none, none⟩

/-- The bucket array, from an empty candidate. -/
def readBuckets (request : Request) : Value → Option DayCandidate
  | .array vs => vs.foldlM (addItem request) (vibeDayCandidateInit request.date)
  | _ => none

def readHasAnyData : Value → Option Bool
  | .bool b => some b
  | _ => none

/-- A name that announces more pages. -/
def PaginationName (k : List UInt8) : Prop := ∃ key ∈ paginationKeys, key.bytes = k

instance (k : List UInt8) : Decidable (PaginationName k) :=
  inferInstanceAs (Decidable (∃ key ∈ paginationKeys, key.bytes = k))

/-- A name announces more pages when it is one of the keys for that. -/
theorem paginationName_iff {k : List UInt8} :
    PaginationName k ↔ k ∈ paginationKeys.map CString.bytes :=
  List.mem_map.symm

/-- One member of the root. -/
def RootFields.member (request : Request) (f : RootFields) (m : List UInt8 × Value) :
    Option RootFields :=
  if m.1 = keyBuckets.bytes then
    (once (readBuckets request) f.buckets m.2).map fun buckets ↦ { f with buckets }
  else if m.1 = keyHasAnyData.bytes then
    (once readHasAnyData f.hasAnyData m.2).map fun hasAnyData ↦ { f with hasAnyData }
  else if PaginationName m.1 then none
  else some f

/-- The parser's own record of the members. -/
def Grammar.withRoot (g : Grammar) (f : RootFields) : Grammar :=
  resetBucket { g with
    candidate := f.buckets.getD (vibeDayCandidateInit g.targetDateKey)
    seenBuckets := f.buckets.isSome
    seenHasAnyData := f.hasAnyData.isSome
    rootHasAnyData := f.hasAnyData.getD false }

/-- A member of the root changes the members that have been read, and nothing else. -/
theorem rootMember_withRoot {g g' : Grammar} {f : RootFields} (hg : resetBucket g' = g.withRoot f)
    (m : List UInt8 × Value) :
    (rootMember g' m.1 m.2).map resetBucket = (f.member g.request m).map g.withRoot := by
  obtain ⟨k, v⟩ := m
  -- The parser's flags say which of the two members have been read.
  obtain ⟨hseen, hseenAny, hcandidate, hrequest⟩ : g'.seenBuckets = f.buckets.isSome ∧
      g'.seenHasAnyData = f.hasAnyData.isSome ∧
      g'.candidate = f.buckets.getD (vibeDayCandidateInit g.targetDateKey) ∧
      g'.request = g.request := by
    have h₁ := congrArg Grammar.seenBuckets hg
    have h₂ := congrArg Grammar.seenHasAnyData hg
    have h₃ := congrArg Grammar.candidate hg
    have h₄ := congrArg Grammar.request hg
    exact ⟨h₁, h₂, h₃, h₄⟩
  unfold rootMember RootFields.member
  dsimp only
  by_cases hbuckets : k = keyBuckets.bytes
  · rw [if_pos hbuckets, if_pos hbuckets]
    cases v with
    | array vs =>
      dsimp only
      rw [hseen]
      cases hf : f.buckets with
      | some c => simp [once]
      | none =>
        rw [hf] at hcandidate
        have hitems := foldlM_bucketItem vs g'
        rw [hrequest, hcandidate] at hitems
        have hread : once (readBuckets g.request) none (.array vs) =
            (vs.foldlM (addItem g.request) (vibeDayCandidateInit g.targetDateKey)).map some := rfl
        rw [hread]
        -- The bucket array starts from an empty candidate, so what was in it before is gone.
        have hset : ∀ c, resetBucket { g'.withCandidate c with seenBuckets := true } =
            g.withRoot { f with buckets := some c } := by
          intro c
          have hcongr := congrArg (fun g : Grammar ↦
            { g.withCandidate c with seenBuckets := true }) hg
          exact hcongr
        have hcomm : ∀ g₁ : Grammar, resetBucket { g₁ with seenBuckets := true } =
            resetBucket { resetBucket g₁ with seenBuckets := true } := fun _ ↦ rfl
        cases hrun : vs.foldlM bucketItem g' with
        | none =>
          rw [hrun] at hitems
          cases hc : vs.foldlM (addItem g.request) (vibeDayCandidateInit g.targetDateKey) with
          | none => rfl
          | some c => rw [Option.getD_none, hc] at hitems; cases hitems
        | some g₁ =>
          rw [hrun] at hitems
          cases hc : vs.foldlM (addItem g.request) (vibeDayCandidateInit g.targetDateKey) with
          | none => rw [Option.getD_none, hc] at hitems; cases hitems
          | some c =>
            rw [Option.getD_none, hc] at hitems
            have hreset : resetBucket g₁ = g'.withCandidate c := Option.some.inj hitems
            show some (resetBucket { g₁ with seenBuckets := true }) = some _
            rw [hcomm, hreset, hset]
    | _ => cases f.buckets <;> rfl
  rw [if_neg hbuckets, if_neg hbuckets]
  by_cases hany : k = keyHasAnyData.bytes
  · rw [if_pos hany, if_pos hany]
    cases v with
    | bool b =>
      dsimp only
      rw [hseenAny]
      cases hf : f.hasAnyData with
      | some c => simp [once]
      | none =>
        have hcongr := congrArg (fun g : Grammar ↦
          { g with seenHasAnyData := true, rootHasAnyData := b }) hg
        exact congrArg some hcongr
    | _ => cases f.hasAnyData <;> rfl
  rw [if_neg hany, if_neg hany]
  by_cases hpage : PaginationName k
  · rw [if_pos (paginationName_iff.1 hpage), if_pos hpage]
    rfl
  · rw [if_neg (mt paginationName_iff.2 hpage), if_neg hpage]
    exact congrArg some hg

/-- **The members of the root**, in order. -/
theorem foldlM_rootMember {g : Grammar} (ms : List (List UInt8 × Value)) :
    ∀ {g' : Grammar} {f : RootFields}, resetBucket g' = g.withRoot f →
      (ms.foldlM (fun g m ↦ rootMember g m.1 m.2) g').map resetBucket =
        (ms.foldlM (RootFields.member g.request) f).map g.withRoot := by
  induction ms with
  | nil => intro g' f hg; exact congrArg some hg
  | cons m ms ih =>
    intro g' f hg
    have hmember := rootMember_withRoot hg m
    rw [List.foldlM_cons, List.foldlM_cons]
    cases hg₁ : rootMember g' m.1 m.2 with
    | none =>
      rw [hg₁] at hmember
      cases hf : f.member g.request m with
      | none => rfl
      | some f₁ => rw [hf] at hmember; cases hmember
    | some g₁ =>
      rw [hg₁] at hmember
      cases hf : f.member g.request m with
      | none => rw [hf] at hmember; cases hmember
      | some f₁ =>
        rw [hf] at hmember
        exact ih (Option.some.inj hmember)

/-- **The members of the root, name by name.** -/
theorem foldlM_root {request : Request} {ms : List (List UInt8 × Value)} :
    ∀ {f f' : RootFields}, ms.foldlM (RootFields.member request) f = some f' ↔
      (valuesOf ms keyBuckets).foldlM (once (readBuckets request)) f.buckets = some f'.buckets ∧
      (valuesOf ms keyHasAnyData).foldlM (once readHasAnyData) f.hasAnyData =
        some f'.hasAnyData ∧
      ∀ key ∈ paginationKeys, valuesOf ms key = [] := by
  induction ms with
  | nil =>
    intro f f'
    obtain ⟨a, b⟩ := f
    obtain ⟨a', b'⟩ := f'
    simp
  | cons m ms ih =>
    intro f f'
    rw [List.foldlM_cons]
    unfold RootFields.member
    -- a name the schema reads is no pagination key
    have hpages : ¬ PaginationName m.1 →
        ((∀ key ∈ paginationKeys, valuesOf (m :: ms) key = []) ↔
          ∀ key ∈ paginationKeys, valuesOf ms key = []) := by
      intro hm
      refine forall₂_congr fun key hkey ↦ ?_
      rw [valuesOf_cons_of_ne fun h ↦ hm ⟨key, hkey, h.symm⟩]
    by_cases hbuckets : m.1 = keyBuckets.bytes
    · have hany : m.1 ≠ keyHasAnyData.bytes := by rw [hbuckets]; decide
      have hpage : ¬ PaginationName m.1 := by rw [hbuckets]; decide
      rw [if_pos hbuckets, valuesOf_cons_of_eq hbuckets, valuesOf_cons_of_ne hany, hpages hpage,
        List.foldlM_cons]
      cases once (readBuckets request) f.buckets m.2 with
      | none => simp
      | some buckets => exact ih
    rw [if_neg hbuckets, valuesOf_cons_of_ne hbuckets]
    by_cases hany : m.1 = keyHasAnyData.bytes
    · have hpage : ¬ PaginationName m.1 := by rw [hany]; decide
      rw [if_pos hany, valuesOf_cons_of_eq hany, hpages hpage, List.foldlM_cons]
      cases once readHasAnyData f.hasAnyData m.2 with
      | none => simp
      | some hasAnyData => exact ih
    rw [if_neg hany, valuesOf_cons_of_ne hany]
    by_cases hpage : PaginationName m.1
    · rw [if_pos hpage]
      obtain ⟨key, hkey, hm⟩ := hpage
      constructor
      · intro h
        cases h
      · rintro ⟨-, -, h⟩
        have := h key hkey
        rw [valuesOf_cons_of_eq hm.symm] at this
        cases this
    · rw [if_neg hpage, hpages hpage]
      exact ih

end VibeUsage
