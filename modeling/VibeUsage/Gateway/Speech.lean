import VibeUsage.Gateway.Collector
import VibeUsage.Lib.Python.Json

/-!
# Consistent speech

A recording in which the deltas of every turn are its transcript, up to the canonical form. The
deltas come in the order of the turns, the finals too, and a final after the deltas of its own turn;
those of later turns may precede it. The collector accepts every such sequence, unless a final
without a letter or a digit finds letters or digits of a later turn pending: that it takes for a
revision.

`late_final` says which finals are taken for a revision, and `Remains.run` is the run: the collector
stops at the first of them and confirms every turn when there is none. `consistent_speech` is the
result in both directions.
-/

namespace VibeUsage

open Python

/-- A turn as it was spoken. -/
structure SpokenTurn where
  ident : PyStr
  transcript : PyStr
  deltas : List PyStr

/-- What is heard, with the number of the turn. -/
inductive Heard
  | delta (turn : ℕ) (text : PyStr)
  | final (turn : ℕ) (ident transcript : PyStr)

namespace Heard

def event : Heard → VoiceEvent
  | delta _ text => deltaEvent text
  | final _ ident transcript => finalEvent ident transcript

/-- The deltas of a sequence. -/
def deltasOf : List Heard → List (ℕ × PyStr)
  | [] => []
  | delta turn text :: rest => (turn, text) :: deltasOf rest
  | final _ _ _ :: rest => deltasOf rest

/-- The finals of a sequence. -/
def finalsOf : List Heard → List (ℕ × PyStr × PyStr)
  | [] => []
  | delta _ _ :: rest => finalsOf rest
  | final turn ident transcript :: rest => (turn, ident, transcript) :: finalsOf rest

end Heard

/-- The deltas of turns from the `k`-th, in their order. -/
def turnDeltas (k : ℕ) (turns : List SpokenTurn) : List (ℕ × PyStr) :=
  (turns.zipIdx k).flatMap fun turn ↦ turn.1.deltas.map fun text ↦ (turn.2, text)

/-- The finals of turns from the `k`-th, in their order. -/
def turnFinals (k : ℕ) (turns : List SpokenTurn) : List (ℕ × PyStr × PyStr) :=
  (turns.zipIdx k).map fun turn ↦ (turn.2, turn.1.ident, turn.1.transcript)

/-- A final comes after the deltas of its own turn. -/
def FinalsLast (heard : List Heard) : Prop :=
  ∀ front rest turn ident transcript, heard = front ++ .final turn ident transcript :: rest →
    ∀ text, .delta turn text ∉ rest

/-- A sequence of what is heard of some turns. -/
structure Interleaving (turns : List SpokenTurn) (heard : List Heard) : Prop where
  deltas : Heard.deltasOf heard = turnDeltas 0 turns
  finals : Heard.finalsOf heard = turnFinals 0 turns
  last : FinalsLast heard

variable (u : CharacterData)

/-- The canonical form of a transcript, which is stripped first. -/
def SpokenTurn.canonical (turn : SpokenTurn) : PyStr :=
    Collector.canonical u (strip turn.transcript)

/-- The deltas of a turn are its transcript. -/
def SpokenTurn.Consistent (turn : SpokenTurn) : Prop :=
  Collector.canonical u turn.deltas.flatten = turn.canonical u

/-- The canonical forms of deltas. -/
def canonicalDeltas (deltas : List (ℕ × PyStr)) : PyStr :=
  (deltas.map fun delta ↦ Collector.canonical u delta.2).flatten

/-- The canonical forms of finals. -/
def canonicalFinals (finals : List (ℕ × PyStr × PyStr)) : PyStr :=
  (finals.map fun final ↦ Collector.canonical u (strip final.2.2)).flatten

/-- The transcripts that are not empty, with single spaces between them. -/
def joinedTranscripts (turns : List SpokenTurn) : PyStr :=
  (py " ").intercalate ((turns.map fun turn ↦ strip turn.transcript).filter (· ≠ []))

/-- The limits of the collector. -/
structure WithinLimits (turns : List SpokenTurn) (heard : List Heard) : Prop where
  length : turns.length ≤ 32
  nodup : (turns.map SpokenTurn.ident).Nodup
  ident : ∀ turn ∈ turns, 1 ≤ turn.ident.length ∧ turn.ident.length ≤ 256
  deltas : ∀ turn ∈ turns, ∀ text ∈ turn.deltas, hasNul text = false
  transcript : ∀ turn ∈ turns, hasNul turn.transcript = false
  /-- What is heard and not yet confirmed. -/
  pending : ∀ front rest, heard = front ++ rest →
    (canonicalDeltas u (Heard.deltasOf front)).length ≤
      (canonicalFinals u (Heard.finalsOf front)).length + 4096
  text : ∃ bytes, encodeUtf8 (joinedTranscripts turns) = some bytes ∧
    bytes.length ≤ maxTranscriptBytes

/-- A final without a letter or a digit comes when a letter or a digit of a later turn was heard, by
what is `pending` already or comes before it. -/
def Late (pending : List (ℕ × PyStr)) (heard : List Heard) : Prop :=
  ∃ front rest turn ident transcript, heard = front ++ .final turn ident transcript :: rest ∧
    Collector.canonical u (strip transcript) = [] ∧
    ∃ later text, (later, text) ∈ pending ++ Heard.deltasOf front ∧ turn < later ∧
      Collector.canonical u text ≠ []

/-! ### The canonical form -/

variable {u}

/-- The canonical form goes character by character. -/
theorem canonical_append (a b : PyStr) :
    Collector.canonical u (a ++ b) = Collector.canonical u a ++ Collector.canonical u b := by
  unfold Collector.canonical
  rw [List.flatMap_append, List.filter_append]

/-- What is canonical of a whole is what is canonical of its parts. -/
theorem canonical_flatten (texts : List PyStr) :
    Collector.canonical u texts.flatten = (texts.map (Collector.canonical u)).flatten := by
  induction texts with
  | nil => rfl
  | cons text texts ih => rw [List.flatten_cons, canonical_append, ih, List.map_cons,
      List.flatten_cons]

/-- The deltas, one stretch after the other. -/
theorem canonicalDeltas_append (a b : List (ℕ × PyStr)) :
    canonicalDeltas u (a ++ b) = canonicalDeltas u a ++ canonicalDeltas u b := by
  unfold canonicalDeltas
  rw [List.map_append, List.flatten_append]

/-- Only texts without letters and digits have no canonical form in all. -/
theorem canonicalDeltas_eq_nil {deltas : List (ℕ × PyStr)} :
    canonicalDeltas u deltas = [] ↔ ∀ delta ∈ deltas, Collector.canonical u delta.2 = [] := by
  unfold canonicalDeltas
  rw [List.flatten_eq_nil_iff]
  simp only [List.mem_map, forall_exists_index, and_imp, forall_apply_eq_imp_iff₂]

/-- **The deltas of a turn** spell its final. -/
theorem SpokenTurn.Consistent.canonicalDeltas_eq {turn : SpokenTurn} (h : turn.Consistent u)
    (k : ℕ) :
    canonicalDeltas u (turn.deltas.map fun text ↦ (k, text)) = turn.canonical u := by
  rw [← h, canonical_flatten, canonicalDeltas, List.map_map]
  rfl

/-! ### The two events -/

/-- A delta is an event of its kind. -/
theorem isKind_deltaEvent (kind : String) (text : PyStr) :
    isKind kind (deltaEvent text) = decide (py "input_transcript.added" = py kind) := by
  unfold isKind deltaEvent
  rw [PyValue.get, if_pos rfl]

/-- It has its text. -/
theorem itemText_deltaEvent (text : PyStr) : itemText (deltaEvent text) = some text := by
  have hitem : PyValue.get (py "item") (deltaEvent text) =
      some (.dict [(py "text", .str text)]) := by
    rw [deltaEvent, PyValue.get, if_neg (by decide), PyValue.get, if_pos rfl]
  unfold itemText
  rw [hitem]
  dsimp only
  rw [PyValue.get, if_pos rfl]

/-- A final is an event of its kind. -/
theorem isKind_finalEvent (kind : String) (ident transcript : PyStr) :
    isKind kind (finalEvent ident transcript) = decide (py "turn.done" = py kind) := by
  unfold isKind finalEvent
  rw [PyValue.get, if_pos rfl]

/-- It has the turn of the user. -/
theorem userTurn_finalEvent (ident transcript : PyStr) :
    userTurn (finalEvent ident transcript) = some [(py "id", .str ident),
      (py "role", .str (py "user")), (py "transcript", .str transcript)] := by
  have hturn : PyValue.get (py "turn") (finalEvent ident transcript) =
      some (.dict [(py "id", .str ident), (py "role", .str (py "user")),
        (py "transcript", .str transcript)]) := by
    rw [finalEvent, PyValue.get, if_neg (by decide), PyValue.get, if_pos rfl]
  unfold userTurn
  rw [hturn]
  dsimp only
  rw [PyValue.get, if_neg (by decide), PyValue.get, if_pos rfl]
  exact if_pos rfl

/-- A delta is pending. -/
theorem ingest_deltaEvent {state : Collector} {text : PyStr} (htext : hasNul text = false)
    (hlength : (state.pendingText ++ Collector.canonical u text).length ≤ 4096) :
    state.ingest u (deltaEvent text) =
      .ok { state with pendingText := state.pendingText ++ Collector.canonical u text } := by
  unfold Collector.ingest
  rw [isKind_deltaEvent, isKind_deltaEvent, isKind_deltaEvent, if_neg (by decide),
    if_neg (by decide), if_pos (by decide), itemText_deltaEvent]
  dsimp only
  rw [htext, if_neg Bool.false_ne_true, if_neg (Nat.not_lt.2 hlength)]

/-- A final is what `finish` makes of it. -/
theorem ingest_finalEvent {state : Collector} {ident transcript : PyStr}
    (hident : 1 ≤ ident.length ∧ ident.length ≤ 256) (htext : hasNul transcript = false)
    (hlength : state.order.length < 32) :
    state.ingest u (finalEvent ident transcript) =
      (state.appear ident).finish u ident (strip transcript) := by
  have hid : turnIdent [(py "id", .str ident), (py "role", .str (py "user")),
      (py "transcript", .str transcript)] = some ident := by
    unfold turnIdent
    rw [PyValue.get, if_pos rfl]
    exact if_pos hident
  have htranscript : turnTranscript [(py "id", .str ident), (py "role", .str (py "user")),
      (py "transcript", .str transcript)] = some transcript := by
    unfold turnTranscript
    rw [PyValue.get, if_neg (by decide), PyValue.get, if_neg (by decide), PyValue.get, if_pos rfl]
    exact if_neg (by rw [htext]; exact Bool.false_ne_true)
  unfold Collector.ingest
  rw [isKind_finalEvent, isKind_finalEvent, isKind_finalEvent, isKind_finalEvent,
    isKind_finalEvent, if_neg (by decide), if_neg (by decide), if_neg (by decide),
    if_neg (not_not.2 (.inr (by decide))), userTurn_finalEvent]
  dsimp only
  rw [hid]
  dsimp only
  rw [if_neg (fun h ↦ Nat.not_le_of_lt hlength h.2), if_neg (by decide), htranscript]

/-! ### The text -/

/-- A joined list begins with its first part joined. -/
theorem intercalate_front {α : Type*} (sep : List α) (a b : List (List α)) :
    sep.intercalate a <+: sep.intercalate (a ++ b) := by
  induction a with
  | nil => exact List.nil_prefix
  | cons x a ih =>
    cases a with
    | cons y a =>
      rw [List.cons_append, List.cons_append, List.intercalate_cons_cons,
        List.intercalate_cons_cons, List.prefix_append_right_inj]
      exact ih
    | nil =>
      rw [List.intercalate_singleton, List.singleton_append]
      cases b with
      | nil => rw [List.intercalate_singleton]
      | cons y b =>
        rw [List.intercalate_cons_cons, List.append_assoc]
        exact List.prefix_append _ _

/-- So do the transcripts. -/
theorem joinedTranscripts_front (a b : List SpokenTurn) :
    joinedTranscripts a <+: joinedTranscripts (a ++ b) := by
  unfold joinedTranscripts
  rw [List.map_append, List.filter_append]
  exact intercalate_front _ _ _

/-- The front of a text has an encoding when the text has one, and that is not longer. -/
theorem encodeUtf8_of_front {text whole : PyStr} {bytes : List UInt8} (h : text <+: whole)
    (hbytes : encodeUtf8 whole = some bytes) :
    ∃ front, encodeUtf8 text = some front ∧ front.length ≤ bytes.length := by
  obtain ⟨rest, rfl⟩ := h
  rw [encodeUtf8_append, Option.bind_eq_some_iff] at hbytes
  obtain ⟨front, hfront, hrest⟩ := hbytes
  obtain ⟨back, -, rfl⟩ := Option.map_eq_some_iff.1 hrest
  exact ⟨front, hfront, by rw [List.length_append]; exact Nat.le_add_right _ _⟩

/-! ### A collector between two events -/

/-- The collector with the finals of `done`, and `pending` heard and not yet confirmed. -/
def confirmed (u : CharacterData) (done : List SpokenTurn) (pending : List (ℕ × PyStr)) :
    Collector :=
  { order := done.map SpokenTurn.ident
    final := done.map fun turn ↦ (turn.ident, strip turn.transcript)
    openTurns := ∅
    pendingText := canonicalDeltas u pending }

/-- A turn that has no final has no text. -/
theorem lookup_confirmed {done : List SpokenTurn} {ident : PyStr}
    (h : ident ∉ done.map SpokenTurn.ident) :
    (done.map fun turn ↦ (turn.ident, strip turn.transcript)).lookup ident = none := by
  rw [List.lookup_eq_none_iff]
  intro entry hentry
  obtain ⟨turn, hturn, rfl⟩ := List.mem_map.1 hentry
  rw [bne_iff_ne]
  rintro rfl
  exact h (List.mem_map_of_mem hturn)

/-- Each turn has one final, so the text is that of the finals. -/
theorem text_confirmed {done : List SpokenTurn} (pending : List (ℕ × PyStr))
    (h : (done.map SpokenTurn.ident).Nodup) :
    (confirmed u done pending).text = joinedTranscripts done := by
  have hlookup : ∀ before after, done = before ++ after →
      ((after.map SpokenTurn.ident).filterMap fun ident ↦
        (done.map fun turn ↦ (turn.ident, strip turn.transcript)).lookup ident) =
      after.map fun turn ↦ strip turn.transcript := by
    intro before after hdone
    induction after generalizing before with
    | nil => rfl
    | cons turn after ih =>
      have hnew : turn.ident ∉ before.map SpokenTurn.ident := by
        rw [hdone, List.map_append, List.nodup_append] at h
        intro hmem
        exact h.2.2 _ hmem _ List.mem_cons_self rfl
      have hfirst : (done.map fun turn ↦ (turn.ident, strip turn.transcript)).lookup turn.ident =
          some (strip turn.transcript) := by
        rw [hdone, List.map_append, List.lookup_append, lookup_confirmed hnew, Option.none_or,
          List.map_cons, List.lookup_cons_self]
      rw [List.map_cons, List.filterMap_cons, hfirst, List.map_cons,
        ih (before ++ [turn]) (by rw [hdone, List.append_assoc]; rfl)]
  show spokenText _ _ = _
  unfold spokenText joinedTranscripts
  rw [← hlookup [] done rfl]
  rfl

/-- A delta for which there is room. -/
theorem ingest_delta_of_room (done : List SpokenTurn) {pending : List (ℕ × PyStr)} {turn : ℕ}
    {text : PyStr} (htext : hasNul text = false)
    (hroom : (canonicalDeltas u (pending ++ [(turn, text)])).length ≤ 4096) :
    (confirmed u done pending).ingest u (deltaEvent text) =
      .ok (confirmed u done (pending ++ [(turn, text)])) := by
  have hpending : (confirmed u done pending).pendingText ++ Collector.canonical u text =
      canonicalDeltas u (pending ++ [(turn, text)]) := by
    rw [canonicalDeltas_append]
    simp [canonicalDeltas, confirmed]
  rw [ingest_deltaEvent htext (hpending ▸ hroom), hpending]
  rfl

/-- What its own deltas made pending, a final takes, unless it has no letter or digit to take and
others are pending. -/
theorem consume_append (normalized later : PyStr) :
    Collector.consume normalized (normalized ++ later) =
      if normalized = [] ∧ later ≠ [] then none else some later := by
  unfold Collector.consume
  by_cases hnormalized : normalized = []
  · subst hnormalized
    rw [List.nil_append]
    by_cases hlater : later = []
    · rw [if_pos hlater, if_neg (fun h ↦ h.2 hlater), hlater]
    · have hnone : ¬ later <+: [] := fun h ↦ hlater (List.prefix_nil.1 h)
      have hempty : ¬ (([] : PyStr) ≠ [] ∧ [] <+: later) := fun h ↦ h.1 rfl
      rw [if_neg hlater, if_neg hempty, if_neg hnone]
      exact (if_pos ⟨rfl, hlater⟩).symm
  · rw [if_neg (fun h ↦ hnormalized (List.append_eq_nil_iff.1 h).1),
      if_pos ⟨hnormalized, List.prefix_append _ _⟩, if_neg (fun h ↦ hnormalized h.1),
      List.drop_left]

/-- **A final** is taken into what has been confirmed. -/
theorem confirmed_append_final {done : List SpokenTurn} {turn : SpokenTurn}
    (pending later : List (ℕ × PyStr))
    (h : turn.ident ∉ done.map SpokenTurn.ident) :
    { (confirmed u done pending).appear turn.ident with
      pendingText := canonicalDeltas u later
      final := (confirmed u done pending).final ++ [(turn.ident, strip turn.transcript)]
      openTurns := (confirmed u done pending).openTurns.erase turn.ident } =
      confirmed u (done ++ [turn]) later := by
  dsimp only
  rw [Collector.order_appear, if_neg (show turn.ident ∉ (confirmed u done pending).order from h)]
  simp [confirmed]

/-- A final that finds its own deltas pending, then those of later turns. -/
theorem ingest_final_of_own {done : List SpokenTurn} {turn : SpokenTurn}
    {own : List (ℕ × PyStr)} (later : List (ℕ × PyStr)) {bytes : List UInt8}
    (hown : canonicalDeltas u own = turn.canonical u)
    (hnodup : ((done ++ [turn]).map SpokenTurn.ident).Nodup)
      (hlength : (done ++ [turn]).length ≤ 32)
    (hident : 1 ≤ turn.ident.length ∧ turn.ident.length ≤ 256)
    (htranscript : hasNul turn.transcript = false)
    (htext : encodeUtf8 (joinedTranscripts (done ++ [turn])) = some bytes)
    (hbytes : bytes.length ≤ maxTranscriptBytes) :
    (confirmed u done (own ++ later)).ingest u (finalEvent turn.ident turn.transcript) =
      if turn.canonical u = [] ∧ canonicalDeltas u later ≠ [] then
        .error (.voice "voice_transcript_inconsistent")
      else .ok (confirmed u (done ++ [turn]) later) := by
  have hnew : turn.ident ∉ done.map SpokenTurn.ident := by
    rw [List.map_append, List.nodup_append] at hnodup
    exact fun hmem ↦ hnodup.2.2 _ hmem _ List.mem_cons_self rfl
  have hshort : (confirmed u done (own ++ later)).order.length < 32 := by
    rw [List.length_append, List.length_singleton] at hlength
    rw [confirmed, List.length_map]
    exact hlength
  rw [ingest_finalEvent hident htranscript hshort]
  unfold Collector.finish
  rw [Collector.final_appear, Collector.pendingText_appear, Collector.openTurns_appear,
    show (confirmed u done (own ++ later)).final.lookup turn.ident = none from
      lookup_confirmed hnew,
    show (confirmed u done (own ++ later)).pendingText =
      turn.canonical u ++ canonicalDeltas u later from by
        rw [← hown, ← canonicalDeltas_append]; rfl]
  dsimp only
  rw [show Collector.canonical u (strip turn.transcript) = turn.canonical u from rfl,
    consume_append]
  by_cases hlate : turn.canonical u = [] ∧ canonicalDeltas u later ≠ []
  · rw [if_pos hlate, if_pos hlate]
  · rw [if_neg hlate, if_neg hlate]
    dsimp only
    have hstate := confirmed_append_final (u := u) (own ++ later) later hnew
    dsimp only at hstate
    rw [hstate, text_confirmed later hnodup, htext]
    exact if_neg (Nat.not_lt.2 hbytes)

/-! ### The rest of a sequence -/

/-- What is still to be heard when the finals of `done` were, and `pending` was heard and not yet
confirmed. -/
structure Remains (u : CharacterData) (done : List SpokenTurn) (pending : List (ℕ × PyStr))
    (turns : List SpokenTurn) (heard : List Heard) : Prop where
  consistent : ∀ turn ∈ turns, turn.Consistent u
  deltas : turnDeltas done.length turns = pending ++ Heard.deltasOf heard
  finals : Heard.finalsOf heard = turnFinals done.length turns
  last : FinalsLast heard
  length : (done ++ turns).length ≤ 32
  nodup : ((done ++ turns).map SpokenTurn.ident).Nodup
  ident : ∀ turn ∈ turns, 1 ≤ turn.ident.length ∧ turn.ident.length ≤ 256
  text : ∀ turn ∈ turns, ∀ text ∈ turn.deltas, hasNul text = false
  transcript : ∀ turn ∈ turns, hasNul turn.transcript = false
  room : ∀ front rest, heard = front ++ rest →
    (canonicalDeltas u (pending ++ Heard.deltasOf front)).length ≤
      (canonicalFinals u (Heard.finalsOf front)).length + 4096
  bytes : ∃ bytes, encodeUtf8 (joinedTranscripts (done ++ turns)) = some bytes ∧
    bytes.length ≤ maxTranscriptBytes

/-- The deltas, turn by turn. -/
theorem turnDeltas_cons (k : ℕ) (turn : SpokenTurn) (turns : List SpokenTurn) :
    turnDeltas k (turn :: turns) =
      (turn.deltas.map fun text ↦ (k, text)) ++ turnDeltas (k + 1) turns := by
  unfold turnDeltas
  rw [List.zipIdx_cons, List.flatMap_cons]

/-- The finals, turn by turn. -/
theorem turnFinals_cons (k : ℕ) (turn : SpokenTurn) (turns : List SpokenTurn) :
    turnFinals k (turn :: turns) =
      (k, turn.ident, turn.transcript) :: turnFinals (k + 1) turns := by
  unfold turnFinals
  rw [List.zipIdx_cons, List.map_cons]

/-- The deltas of turns are labelled with the turns. -/
theorem mem_turnDeltas {k turn : ℕ} {text : PyStr} {turns : List SpokenTurn}
    (h : (turn, text) ∈ turnDeltas k turns) : k ≤ turn ∧ ∃ t ∈ turns, text ∈ t.deltas := by
  induction turns generalizing k with
  | nil => cases h
  | cons t turns ih =>
    rw [turnDeltas_cons, List.mem_append, List.mem_map] at h
    rcases h with ⟨other, hother, heq⟩ | h
    · obtain ⟨rfl, rfl⟩ := Prod.mk.inj heq
      exact ⟨le_refl _, t, List.mem_cons_self, hother⟩
    · obtain ⟨hle, t', ht', htext⟩ := ih h
      exact ⟨Nat.le_of_succ_le hle, t', List.mem_cons_of_mem _ ht', htext⟩

/-- The turns are numbered from the first. -/
theorem le_of_mem_turnFinals {k turn : ℕ} {said : PyStr × PyStr} {turns : List SpokenTurn}
    (h : (turn, said) ∈ turnFinals k turns) : k ≤ turn := by
  induction turns generalizing k with
  | nil => cases h
  | cons t turns ih =>
    rw [turnFinals_cons, List.mem_cons] at h
    rcases h with heq | h
    · exact (Prod.mk.inj heq).1.ge
    · exact Nat.le_of_succ_le (ih h)

/-- The deltas among what was heard. -/
theorem Heard.deltasOf_append (a b : List Heard) :
    Heard.deltasOf (a ++ b) = Heard.deltasOf a ++ Heard.deltasOf b := by
  induction a with
  | nil => rfl
  | cons x a ih => cases x <;> simp [Heard.deltasOf, ih]

/-- The finals among it. -/
theorem Heard.finalsOf_append (a b : List Heard) :
    Heard.finalsOf (a ++ b) = Heard.finalsOf a ++ Heard.finalsOf b := by
  induction a with
  | nil => rfl
  | cons x a ih => cases x <;> simp [Heard.finalsOf, ih]

/-- A delta is one that was heard. -/
theorem Heard.mem_deltasOf {heard : List Heard} {turn : ℕ} {text : PyStr} :
    (turn, text) ∈ Heard.deltasOf heard ↔ .delta turn text ∈ heard := by
  induction heard with
  | nil => simp [Heard.deltasOf]
  | cons x heard ih => cases x <;> simp [Heard.deltasOf, ih]

/-- What is left is in order too. -/
theorem FinalsLast.tail {x : Heard} {heard : List Heard} (h : FinalsLast (x :: heard)) :
    FinalsLast heard := by
  intro front rest turn ident transcript heq
  exact h (x :: front) rest turn ident transcript (by rw [heq, List.cons_append])

/-! ### A final that is late -/

/-- Nothing comes late when nothing comes. -/
theorem late_nil (pending : List (ℕ × PyStr)) : ¬ Late u pending [] := by
  rintro ⟨front, rest, turn, ident, transcript, heq, -⟩
  exact List.append_ne_nil_of_right_ne_nil front (List.cons_ne_nil _ rest) heq.symm

/-- A delta that is heard is pending. -/
theorem late_delta {pending : List (ℕ × PyStr)} {turn : ℕ} {text : PyStr} {heard : List Heard} :
    Late u pending (.delta turn text :: heard) ↔ Late u (pending ++ [(turn, text)]) heard := by
  have hpending : ∀ front, pending ++ Heard.deltasOf (.delta turn text :: front) =
      (pending ++ [(turn, text)]) ++ Heard.deltasOf front := by
    intro front
    rw [Heard.deltasOf, List.append_assoc, List.singleton_append]
  constructor
  · rintro ⟨front, rest, k, ident, transcript, heq, hempty, later, other, hmem, hlater⟩
    cases front with
    | nil => cases heq
    | cons x front =>
      obtain ⟨rfl, rfl⟩ := List.cons.inj heq
      exact ⟨front, rest, k, ident, transcript, rfl, hempty, later, other, hpending front ▸ hmem,
        hlater⟩
  · rintro ⟨front, rest, k, ident, transcript, rfl, hempty, later, other, hmem, hlater⟩
    exact ⟨.delta turn text :: front, rest, k, ident, transcript, rfl, hempty, later, other,
      (hpending front).symm ▸ hmem, hlater⟩

/-- A final is late, or one that follows is; for those that follow, its own deltas do not count. -/
theorem late_final {own later : List (ℕ × PyStr)} {k : ℕ} {ident transcript : PyStr}
    {heard : List Heard} (hown : ∀ delta ∈ own, delta.1 = k) (hlater : ∀ delta ∈ later, k < delta.1)
    (hfinals : ∀ final ∈ Heard.finalsOf heard, k < final.1) :
    Late u (own ++ later) (.final k ident transcript :: heard) ↔
      (Collector.canonical u (strip transcript) = [] ∧ canonicalDeltas u later ≠ []) ∨
        Late u later heard := by
  constructor
  · rintro ⟨front, rest, turn, other, said, heq, hempty, next, text, hmem, hlt, htext⟩
    -- It is this final, or one that comes after it.
    cases front with
    | nil =>
      left
      obtain ⟨hfinal, -⟩ := List.cons.inj heq
      cases hfinal
      refine ⟨hempty, fun hnil ↦ ?_⟩
      rw [Heard.deltasOf, List.append_nil, List.mem_append] at hmem
      rcases hmem with hmem | hmem
      · exact absurd (hown _ hmem) hlt.ne'
      · exact htext (canonicalDeltas_eq_nil.1 hnil _ hmem)
    | cons x front =>
      right
      rw [List.cons_append] at heq
      obtain ⟨rfl, rfl⟩ := List.cons.inj heq
      have hturn : k < turn := by
        refine hfinals (turn, other, said) ?_
        rw [Heard.finalsOf_append]
        exact List.mem_append_right _ List.mem_cons_self
      refine ⟨front, rest, turn, other, said, rfl, hempty, next, text, ?_, hlt, htext⟩
      rw [Heard.deltasOf, List.append_assoc, List.mem_append] at hmem
      rcases hmem with hmem | hmem
      · have hnext : next = k := hown _ hmem
        omega
      · exact hmem
  · rintro (⟨hempty, hnil⟩ | ⟨front, rest, turn, other, said, rfl, hempty, next, text, hmem, hlt⟩)
    · rw [Ne, canonicalDeltas_eq_nil] at hnil
      push Not at hnil
      obtain ⟨⟨next, text⟩, hmem, htext⟩ := hnil
      exact ⟨[], heard, k, ident, transcript, rfl, hempty, next, text,
        List.mem_append_left _ (List.mem_append_right _ hmem), hlater _ hmem, htext⟩
    · refine ⟨.final k ident transcript :: front, rest, turn, other, said, rfl, hempty, next, text,
        ?_, hlt⟩
      rw [Heard.deltasOf, List.append_assoc]
      exact List.mem_append_right _ hmem

/-! ### What one event leaves to be heard -/

/-- A delta that is heard is one of a turn, and there is room for it. -/
theorem Remains.delta {done turns : List SpokenTurn} {pending : List (ℕ × PyStr)} {turn : ℕ}
    {text : PyStr} {heard : List Heard}
    (h : Remains u done pending turns (.delta turn text :: heard)) :
    hasNul text = false ∧ (canonicalDeltas u (pending ++ [(turn, text)])).length ≤ 4096 ∧
      Remains u done (pending ++ [(turn, text)]) turns heard := by
  have hdeltas : turnDeltas done.length turns =
      (pending ++ [(turn, text)]) ++ Heard.deltasOf heard := by
    rw [h.deltas, Heard.deltasOf, List.append_assoc, List.singleton_append]
  refine ⟨?_, ?_, ?_⟩
  · have hmem : (turn, text) ∈ turnDeltas done.length turns := by
      rw [hdeltas]
      exact List.mem_append_left _ (List.mem_append_right _ (List.mem_singleton_self _))
    obtain ⟨-, t, ht, htext⟩ := mem_turnDeltas hmem
    exact h.text t ht text htext
  · have hroom := h.room [.delta turn text] heard rfl
    simpa [Heard.deltasOf, Heard.finalsOf, canonicalFinals] using hroom
  · refine { h with deltas := hdeltas, finals := h.finals, last := h.last.tail, room := ?_ }
    intro front rest heq
    have hroom := h.room (.delta turn text :: front) rest (by rw [heq, List.cons_append])
    rwa [Heard.deltasOf, Heard.finalsOf, ← List.singleton_append, ← List.append_assoc] at hroom

/-- A final that is heard is that of the next turn. Its own deltas are all pending, those pending
besides are of later turns. -/
theorem Remains.final {done turns : List SpokenTurn} {pending : List (ℕ × PyStr)} {k : ℕ}
    {ident transcript : PyStr} {heard : List Heard}
    (h : Remains u done pending turns (.final k ident transcript :: heard)) :
    ∃ turn rest later, turns = turn :: rest ∧ k = done.length ∧ ident = turn.ident ∧
      transcript = turn.transcript ∧ pending = (turn.deltas.map fun text ↦ (k, text)) ++ later ∧
      Remains u (done ++ [turn]) later rest heard := by
  cases turns with
  | nil => exact absurd h.finals (List.cons_ne_nil _ _)
  | cons turn rest =>
    have hfinals := h.finals
    rw [Heard.finalsOf, turnFinals_cons] at hfinals
    obtain ⟨hfinal, hnext⟩ := List.cons.inj hfinals
    obtain ⟨rfl, hsaid⟩ := Prod.mk.inj hfinal
    obtain ⟨rfl, rfl⟩ := Prod.mk.inj hsaid
    have hdeltas := h.deltas
    rw [Heard.deltasOf, turnDeltas_cons] at hdeltas
    -- no delta of the turn itself is still to come
    have hsplit : ∃ later, pending = (turn.deltas.map fun text ↦ (done.length, text)) ++ later ∧
        turnDeltas (done.length + 1) rest = later ++ Heard.deltasOf heard := by
      rcases List.append_eq_append_iff.1 hdeltas with ⟨later, hpending, hrest⟩ | ⟨own, hown, hrest⟩
      · exact ⟨later, hpending, hrest⟩
      · cases own with
        | nil =>
          rw [List.append_nil] at hown
          exact ⟨[], by rw [hown, List.append_nil], by rw [hrest]; rfl⟩
        | cons delta own =>
          have hmem : delta ∈ turn.deltas.map fun text ↦ (done.length, text) := by
            rw [hown]
            exact List.mem_append_right _ List.mem_cons_self
          obtain ⟨text, -, rfl⟩ := List.mem_map.1 hmem
          have hlast : .delta done.length text ∈ heard := by
            rw [← Heard.mem_deltasOf, hrest]
            exact List.mem_cons_self
          exact absurd hlast (h.last [] heard _ _ _ rfl text)
    obtain ⟨later, rfl, hrest⟩ := hsplit
    have hturns : done ++ [turn] ++ rest = done ++ turn :: rest := by
      rw [List.append_assoc, List.singleton_append]
    refine ⟨turn, rest, later, rfl, rfl, rfl, rfl, rfl, ?_⟩
    exact
      { consistent := fun t ht ↦ h.consistent t (List.mem_cons_of_mem _ ht)
        deltas := by rw [List.length_append, List.length_singleton, hrest]
        finals := by rw [List.length_append, List.length_singleton, hnext]
        last := h.last.tail
        length := by rw [hturns]; exact h.length
        nodup := by rw [hturns]; exact h.nodup
        ident := fun t ht ↦ h.ident t (List.mem_cons_of_mem _ ht)
        text := fun t ht ↦ h.text t (List.mem_cons_of_mem _ ht)
        transcript := fun t ht ↦ h.transcript t (List.mem_cons_of_mem _ ht)
        bytes := by rw [hturns]; exact h.bytes
        room := by
          intro front back heq
          have hroom := h.room (.final done.length turn.ident turn.transcript :: front) back
            (by rw [heq, List.cons_append])
          have hown := (h.consistent turn List.mem_cons_self).canonicalDeltas_eq done.length
          -- its own deltas are what the final takes
          rw [Heard.deltasOf, Heard.finalsOf, List.append_assoc, canonicalDeltas_append, hown,
            canonicalFinals, List.map_cons, List.flatten_cons, List.length_append,
            List.length_append] at hroom
          have hsame : Collector.canonical u (strip turn.transcript) = turn.canonical u := rfl
          rw [hsame] at hroom
          rw [canonicalFinals]
          omega }

/-- **A run over what remains.** It fails when a final is late, and confirms all turns otherwise. -/
theorem Remains.run {done turns : List SpokenTurn} {pending : List (ℕ × PyStr)} {heard : List Heard}
    (h : Remains u done pending turns heard) :
    (Late u pending heard → Collector.ingestAll u (confirmed u done pending)
      (heard.map Heard.event) = .error (.voice "voice_transcript_inconsistent")) ∧
    (¬ Late u pending heard → Collector.ingestAll u (confirmed u done pending)
      (heard.map Heard.event) = .ok (confirmed u (done ++ turns) [])) := by
  induction heard generalizing done pending turns with
  | nil =>
    refine ⟨fun hlate ↦ absurd hlate (late_nil pending), fun _ ↦ ?_⟩
    have hdeltas := h.deltas
    cases turns with
    | nil =>
      have hpending : pending = [] := (List.append_eq_nil_iff.1 hdeltas.symm).1
      rw [hpending, List.append_nil]
      rfl
    | cons turn turns =>
      have hfinals := h.finals
      rw [turnFinals_cons] at hfinals
      cases hfinals
  | cons event heard ih =>
    rw [List.map_cons, Collector.ingestAll]
    cases event with
    | delta turn text =>
      obtain ⟨htext, hlength, hrest⟩ := h.delta
      rw [Heard.event, ingest_delta_of_room done htext hlength, late_delta]
      exact ih hrest
    | final k ident transcript =>
      obtain ⟨turn, rest, later, rfl, rfl, rfl, rfl, rfl, hrest⟩ := h.final
      have hown := (h.consistent turn List.mem_cons_self).canonicalDeltas_eq done.length
      have hturns : done ++ [turn] ++ rest = done ++ turn :: rest := by
        rw [List.append_assoc, List.singleton_append]
      obtain ⟨whole, hwhole, hlength⟩ := h.bytes
      obtain ⟨front, hfront, hle⟩ := encodeUtf8_of_front
        (joinedTranscripts_front (done ++ [turn]) rest) (hturns ▸ hwhole)
      have hnodup : ((done ++ [turn]).map SpokenTurn.ident).Nodup := by
        have hall := hrest.nodup
        rw [List.map_append] at hall
        exact hall.of_append_left
      have hshort : (done ++ [turn]).length ≤ 32 := by
        have hall := hrest.length
        rw [List.length_append] at hall
        exact Nat.le_of_add_right_le hall
      have hstep := ingest_final_of_own later hown hnodup hshort
        (h.ident turn List.mem_cons_self) (h.transcript turn List.mem_cons_self) hfront
        (hle.trans hlength)
      -- what is pending besides is of later turns, and so are the finals to come
      have hlater : ∀ delta ∈ later, done.length < delta.1 := by
        intro delta hmem
        have hall := hrest.deltas
        rw [List.length_append, List.length_singleton] at hall
        exact (mem_turnDeltas (by rw [hall]; exact List.mem_append_left _ hmem)).1
      have hfinals : ∀ final ∈ Heard.finalsOf heard, done.length < final.1 := by
        intro final hmem
        rw [hrest.finals, List.length_append, List.length_singleton] at hmem
        exact le_of_mem_turnFinals hmem
      have hlabel : ∀ delta ∈ turn.deltas.map fun text ↦ (done.length, text),
          delta.1 = done.length := by
        intro delta hmem
        obtain ⟨text, -, rfl⟩ := List.mem_map.1 hmem
        rfl
      rw [Heard.event, hstep, late_final hlabel hlater hfinals]
      by_cases hlate : turn.canonical u = [] ∧ canonicalDeltas u later ≠ []
      · rw [if_pos hlate]
        exact ⟨fun _ ↦ rfl, fun hnot ↦ absurd (.inl hlate) hnot⟩
      · rw [if_neg hlate]
        have hrun := ih hrest
        rw [hturns] at hrun
        refine ⟨fun h ↦ hrun.1 (h.resolve_left hlate), fun hnot ↦ hrun.2 fun h ↦ hnot (.inr h)⟩

/-- **Consistent speech is accepted**, unless a final is late: exactly then the collector takes it
for a revision. Otherwise nothing is pending at the end, and the text is that of the turns. -/
theorem consistent_speech {turns : List SpokenTurn} {heard : List Heard}
    (hconsistent : ∀ turn ∈ turns, turn.Consistent u) (hheard : Interleaving turns heard)
    (hlimits : WithinLimits u turns heard) :
    (Collector.ingestAll u .init (heard.map Heard.event) =
      .error (.voice "voice_transcript_inconsistent") ↔ Late u [] heard) ∧
    (¬ Late u [] heard → ∃ state, Collector.ingestAll u .init (heard.map Heard.event) = .ok state ∧
      state.pendingText = [] ∧ state.text = joinedTranscripts turns) := by
  have hremains : Remains u [] [] turns heard :=
    { consistent := hconsistent
      deltas := hheard.deltas.symm
      finals := hheard.finals
      last := hheard.last
      length := hlimits.length
      nodup := hlimits.nodup
      ident := hlimits.ident
      text := hlimits.deltas
      transcript := hlimits.transcript
      room := hlimits.pending
      bytes := hlimits.text }
  obtain ⟨hfails, hends⟩ := hremains.run
  refine ⟨⟨fun hrun ↦ ?_, hfails⟩, fun hnot ↦ ?_⟩
  · by_contra hnot
    have hok := hrun.symm.trans (hends hnot)
    cases hok
  · exact ⟨_, hends hnot, rfl, text_confirmed [] hlimits.nodup⟩

/-! ### Samples -/

/-- Nothing is in order. -/
theorem finalsLast_nil : FinalsLast [] := by
  intro front rest turn ident transcript heq
  exact absurd heq.symm (List.append_ne_nil_of_right_ne_nil front (List.cons_ne_nil _ rest))

/-- A delta may come before anything. -/
theorem finalsLast_delta {turn : ℕ} {text : PyStr} {heard : List Heard} (h : FinalsLast heard) :
    FinalsLast (.delta turn text :: heard) := by
  intro front rest k ident transcript heq
  cases front with
  | nil => cases heq
  | cons x front =>
    rw [List.cons_append] at heq
    exact h front rest k ident transcript (List.cons.inj heq).2

/-- A final may come when its deltas have. -/
theorem finalsLast_final {turn : ℕ} {ident transcript : PyStr} {heard : List Heard}
    (hnone : turn ∉ (Heard.deltasOf heard).map Prod.fst) (h : FinalsLast heard) :
    FinalsLast (.final turn ident transcript :: heard) := by
  intro front rest k other said heq
  cases front with
  | nil =>
    obtain ⟨hfinal, rfl⟩ := List.cons.inj heq
    cases hfinal
    intro text hmem
    exact hnone (List.mem_map_of_mem (f := Prod.fst) (Heard.mem_deltasOf.2 hmem))
  | cons x front =>
    rw [List.cons_append] at heq
    exact h front rest k other said (List.cons.inj heq).2

/-- What is short enough in all never fills the collector. -/
theorem room_of_short {heard : List Heard}
    (h : (canonicalDeltas u (Heard.deltasOf heard)).length ≤ 4096) :
    ∀ front rest, heard = front ++ rest →
      (canonicalDeltas u (Heard.deltasOf front)).length ≤
        (canonicalFinals u (Heard.finalsOf front)).length + 4096 := by
  rintro front rest rfl
  rw [Heard.deltasOf_append, canonicalDeltas_append, List.length_append] at h
  omega

/-- No final is late when each transcript has a letter or a digit. -/
theorem not_late_of_canonical {heard : List Heard}
    (h : ∀ final ∈ Heard.finalsOf heard, Collector.canonical u (strip final.2.2) ≠ [])
    (pending : List (ℕ × PyStr)) : ¬ Late u pending heard := by
  rintro ⟨front, rest, turn, ident, transcript, rfl, hempty, -⟩
  refine h (turn, ident, transcript) ?_ hempty
  rw [Heard.finalsOf_append]
  exact List.mem_append_right _ List.mem_cons_self

/-- The first final comes when the second turn has begun. -/
def delayedTurns : List SpokenTurn :=
  [⟨py "1", py " Remind me.", [py "Remind", py " me"]⟩,
    ⟨py "2", py "After two hours", [py "after ", py "two hours"]⟩]

def delayedHeard : List Heard :=
  [.delta 0 (py "Remind"), .delta 0 (py " me"), .delta 1 (py "after "),
    .final 0 (py "1") (py " Remind me."), .delta 1 (py "two hours"),
    .final 1 (py "2") (py "After two hours")]

/-- A final of one turn that comes after a delta of the next. -/
theorem consistent_speech_delayed : ∃ state,
    Collector.ingestAll asciiData .init (delayedHeard.map Heard.event) = .ok state ∧
      state.pendingText = [] ∧ state.text = py "Remind me. After two hours" := by
  have hconsistent : ∀ turn ∈ delayedTurns, turn.Consistent asciiData := by
    unfold SpokenTurn.Consistent
    decide +kernel
  have hheard : Interleaving delayedTurns delayedHeard :=
    { deltas := by decide +kernel
      finals := by decide +kernel
      last := finalsLast_delta (finalsLast_delta (finalsLast_delta (finalsLast_final
        (by decide +kernel) (finalsLast_delta (finalsLast_final (by decide +kernel)
          finalsLast_nil))))) }
  have hlimits : WithinLimits asciiData delayedTurns delayedHeard :=
    { length := by decide
      nodup := by decide +kernel
      ident := by decide +kernel
      deltas := by decide +kernel
      transcript := by decide +kernel
      pending := room_of_short (by decide +kernel)
      text := ⟨(encodeUtf8 (joinedTranscripts delayedTurns)).get (by decide +kernel),
        (Option.some_get _).symm, by decide +kernel⟩ }
  have hnot : ¬ Late asciiData [] delayedHeard := not_late_of_canonical (by decide +kernel) []
  obtain ⟨state, hrun, hpending, htext⟩ :=
    (consistent_speech hconsistent hheard hlimits).2 hnot
  exact ⟨state, hrun, hpending, htext.trans (by decide +kernel)⟩

/-- A first turn without letters, whose final comes when the second turn has begun. -/
def silentTurns : List SpokenTurn :=
  [⟨py "1", py "...", []⟩, ⟨py "2", py "hello", [py "hello"]⟩]

def silentHeard : List Heard :=
  [.delta 1 (py "hello"), .final 0 (py "1") (py "..."), .final 1 (py "2") (py "hello")]

/-- Consistent speech that is refused. -/
theorem silentTurn_refused : (∀ turn ∈ silentTurns, turn.Consistent asciiData) ∧
    Interleaving silentTurns silentHeard ∧ WithinLimits asciiData silentTurns silentHeard ∧
    Collector.ingestAll asciiData .init (silentHeard.map Heard.event) =
      .error (.voice "voice_transcript_inconsistent") := by
  refine ⟨?_, ?_, ?_, ?_⟩
  · unfold SpokenTurn.Consistent
    decide +kernel
  · exact
      { deltas := by decide +kernel
        finals := by decide +kernel
        last := finalsLast_delta (finalsLast_final (by decide +kernel)
          (finalsLast_final (by decide +kernel) finalsLast_nil)) }
  · exact
      { length := by decide
        nodup := by decide +kernel
        ident := by decide +kernel
        deltas := by decide +kernel
        transcript := by decide +kernel
        pending := room_of_short (by decide +kernel)
        text := ⟨(encodeUtf8 (joinedTranscripts silentTurns)).get (by decide +kernel),
          (Option.some_get _).symm, by decide +kernel⟩ }
  · rfl

end VibeUsage
