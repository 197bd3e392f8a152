import VibeUsage.Lib.Python.Value

/-!
# What was said

`TranscriptCollector` of `voice.py`: the transcripts of the user's turns, taken from one stream of
events. Deltas are heard without a turn; the final transcript of a turn takes its own front off what
is pending, and what it leaves keeps the collector from being ready.

Texts are compared in a canonical form, the letters and digits of the folded text. What folds to
what and what is a letter or a digit is Unicode's to say, so it is a parameter; `casefold` goes
character by character.
-/

namespace VibeUsage

open Python

/-- An event: a `dict` that was read from JSON. -/
abbrev VoiceEvent : Type := List (PyStr × PyValue)

/-- Unicode's data on characters. -/
structure CharacterData where
  /-- What a character is in `text.casefold()`. -/
  casefold : CodePoint → PyStr
  /-- `char.isalnum()` -/
  isalnum : CodePoint → Bool

/-- What `ingest` raises. -/
inductive Raised
  /-- A `VoiceError` with its code. -/
  | voice (code : String)
  /-- A `UnicodeEncodeError`, of a surrogate. -/
  | unicodeEncode
  deriving DecidableEq

/-- `MAX_TRANSCRIPT_BYTES` -/
def maxTranscriptBytes : ℕ := 512

/-- `TranscriptCollector`, without the error that its user keeps in it. -/
structure Collector where
  order : List PyStr
  /-- A `dict`, in the order of insertion. -/
  final : List (PyStr × PyStr)
  openTurns : Finset PyStr
  pendingText : PyStr

/-! ### Reading an event -/

/-- `event.get("type") == kind` -/
def isKind (kind : String) (event : VoiceEvent) : Bool :=
  match PyValue.get (py "type") event with
  | some (.str text) => decide (text = py kind)
  | _ => false

/-- `event["item"]["text"]`, of the right types. -/
def itemText (event : VoiceEvent) : Option PyStr :=
  match PyValue.get (py "item") event with
  | some (.dict item) =>
    match PyValue.get (py "text") item with
    | some (.str text) => some text
    | _ => none
  | _ => none

/-- `event.get("turn")`, when it is a turn of the user. -/
def userTurn (event : VoiceEvent) : Option VoiceEvent :=
  match PyValue.get (py "turn") event with
  | some (.dict turn) =>
    match PyValue.get (py "role") turn with
    | some (.str role) => if role = py "user" then some turn else none
    | _ => none
  | _ => none

/-- `turn.get("id")`, when it is an identifier. -/
def turnIdent (turn : VoiceEvent) : Option PyStr :=
  match PyValue.get (py "id") turn with
  | some (.str ident) => if 1 ≤ ident.length ∧ ident.length ≤ 256 then some ident else none
  | _ => none

/-- `"\0" in text` -/
def hasNul (text : PyStr) : Bool := text.any fun c ↦ decide (c.val = 0)

/-- `turn.get("transcript")`, when it is a transcript. -/
def turnTranscript (turn : VoiceEvent) : Option PyStr :=
  match PyValue.get (py "transcript") turn with
  | some (.str text) => if hasNul text then none else some text
  | _ => none

/-- `" ".join(final[ident] for ident in order if final.get(ident))` -/
def spokenText (order : List PyStr) (final : List (PyStr × PyStr)) : PyStr :=
  (py " ").intercalate ((order.filterMap fun ident ↦ final.lookup ident).filter (· ≠ []))

namespace Collector

/-- `__init__` -/
def init : Collector := { order := [], final := [], openTurns := ∅, pendingText := [] }

variable (u : CharacterData)

/-- `canonical` -/
def canonical (text : PyStr) : PyStr := (text.flatMap u.casefold).filter u.isalnum

/-- `text` -/
def text (state : Collector) : PyStr :=
  spokenText state.order state.final

/-- `ready` -/
def ready (state : Collector) : Bool :=
  decide (state.text ≠ []) && decide (state.openTurns = ∅) && decide (state.pendingText = [])

/-- The end of `self.order.append(ident)` when the turn is new. -/
def appear (state : Collector) (ident : PyStr) : Collector :=
  if ident ∈ state.order then state else { state with order := state.order ++ [ident] }

/-- What is pending after a transcript that was not expected to be there: none when the two are
inconsistent. -/
def consume (normalized pending : PyStr) : Option PyStr :=
  if pending = [] then some []
  else if normalized ≠ [] ∧ normalized <+: pending then some (pending.drop normalized.length)
  else if pending <+: normalized then some []
  else none

/-- The end of `ingest` of `turn.done`, with the stripped text. -/
def finish (state : Collector) (ident text : PyStr) : Except Raised Collector :=
  match state.final.lookup ident with
  | some old => if old ≠ text then .error (.voice "voice_protocol_error") else .ok state
  | none =>
    match consume (canonical u text) state.pendingText with
    | none => .error (.voice "voice_transcript_inconsistent")
    | some pending =>
      let state := { state with
        pendingText := pending
        final := state.final ++ [(ident, text)]
        openTurns := state.openTurns.erase ident }
      match encodeUtf8 state.text with
      | none => .error .unicodeEncode
      | some bytes =>
        if bytes.length > maxTranscriptBytes then .error (.voice "voice_transcript_too_long")
        else .ok state

/-- `ingest` -/
def ingest (state : Collector) (event : VoiceEvent) : Except Raised Collector :=
  if isKind "error" event then .error (.voice "voice_session_failed")
  else if isKind "delegation.created" event then .error (.voice "voice_unexpected_turn")
  else if isKind "input_transcript.added" event then
    match itemText event with
    | none => .error (.voice "voice_protocol_error")
    | some text =>
      if hasNul text then .error (.voice "voice_protocol_error")
      else
        let pending := state.pendingText ++ canonical u text
        if pending.length > 4096 then .error (.voice "voice_protocol_error")
        else .ok { state with pendingText := pending }
  else if ¬ (isKind "turn.created" event ∨ isKind "turn.done" event) then .ok state
  else
    match userTurn event with
    | none => .ok state
    | some turn =>
      match turnIdent turn with
      | none => .error (.voice "voice_protocol_error")
      | some ident =>
        if ident ∉ state.order ∧ 32 ≤ state.order.length then .error (.voice "voice_protocol_error")
        else
          let state := state.appear ident
          if isKind "turn.created" event then
            if state.final.lookup ident = none then
              .ok { state with openTurns := insert ident state.openTurns }
            else .ok state
          else
            match turnTranscript turn with
            | none => .error (.voice "voice_protocol_error")
            | some text => finish u state ident (strip text)

/-- A sequence of events that is ingested, until one raises. -/
def ingestAll : Collector → List VoiceEvent → Except Raised Collector
  | state, [] => .ok state
  | state, event :: events => (ingest u state event).bind fun state ↦ ingestAll state events

end Collector

/-! ### What an event says -/

/-- What an event that is ingested is about. -/
inductive Spoken
  | delta (text : PyStr)
  | created (ident : PyStr)
  /-- A final, with its text stripped. -/
  | final (ident text : PyStr)
  | other

/-- What the event of a turn says, of the turn's own data. -/
def spokenOfTurn (created : Bool) (turn : VoiceEvent) : Spoken :=
  match turnIdent turn with
  | none => .other
  | some ident =>
    if created then .created ident
    else match turnTranscript turn with
      | none => .other
      | some text => .final ident (strip text)

def spoken (event : VoiceEvent) : Spoken :=
  if isKind "input_transcript.added" event then
    match itemText event with
    | none => .other
    | some text => .delta text
  else if isKind "turn.created" event ∨ isKind "turn.done" event then
    match userTurn event with
    | none => .other
    | some turn => spokenOfTurn (isKind "turn.created" event) turn
  else .other

namespace Collector

variable (u : CharacterData)

/-- What a successful `ingest` does, by what the event says. -/
inductive Step (state : Collector) : Spoken → Collector → Prop
  | other : Step state .other state
  | delta (text : PyStr) :
    Step state (.delta text) { state with pendingText := state.pendingText ++ canonical u text }
  | created (ident : PyStr) (openTurns : Finset PyStr)
    (h : openTurns = if state.final.lookup ident = none then insert ident state.openTurns
      else state.openTurns) :
    Step state (.created ident) { state.appear ident with openTurns := openTurns }
  | again (ident text : PyStr) (h : state.final.lookup ident = some text) :
    Step state (.final ident text) (state.appear ident)
  | first (ident text pending : PyStr) (bytes : List UInt8)
    (h : state.final.lookup ident = none)
    (hconsume : consume (canonical u text) state.pendingText = some pending)
    (hbytes : encodeUtf8 (spokenText (state.appear ident).order (state.final ++ [(ident, text)])) =
      some bytes)
    (hlength : bytes.length ≤ maxTranscriptBytes) :
    Step state (.final ident text)
      { state.appear ident with
        pendingText := pending
        final := state.final ++ [(ident, text)]
        openTurns := state.openTurns.erase ident }

/-- A turn appears once. -/
theorem order_appear (state : Collector) (ident : PyStr) :
    (state.appear ident).order =
      if ident ∈ state.order then state.order else state.order ++ [ident] := by
  unfold appear
  split <;> rfl

@[simp] theorem final_appear (state : Collector) (ident : PyStr) :
    (state.appear ident).final = state.final := by
  unfold appear
  split <;> rfl

@[simp] theorem openTurns_appear (state : Collector) (ident : PyStr) :
    (state.appear ident).openTurns = state.openTurns := by
  unfold appear
  split <;> rfl

@[simp] theorem pendingText_appear (state : Collector) (ident : PyStr) :
    (state.appear ident).pendingText = state.pendingText := by
  unfold appear
  split <;> rfl

variable {u}

/-- What `finish` does when it does not raise. -/
theorem finish_cases {state state' : Collector} {ident text : PyStr}
    (h : finish u (state.appear ident) ident text = .ok state') :
    Step u state (.final ident text) state' := by
  unfold finish at h
  rw [final_appear, pendingText_appear, openTurns_appear] at h
  cases hlookup : state.final.lookup ident with
  | some old =>
    rw [hlookup] at h
    dsimp only at h
    split at h
    · cases h
    · rename_i hsame
      rw [not_not] at hsame
      subst hsame
      obtain rfl := Except.ok.inj h
      exact .again ident old hlookup
  | none =>
    rw [hlookup] at h
    dsimp only at h
    split at h
    · cases h
    · rename_i pending hconsume
      split at h
      · cases h
      · rename_i bytes hbytes
        split at h
        · cases h
        · rename_i hlength
          obtain rfl := Except.ok.inj h
          exact .first ident text pending bytes hlookup hconsume hbytes (Nat.le_of_not_lt hlength)

/-- **Everything that `ingest` does.** -/
theorem ingest_cases {state state' : Collector} {event : VoiceEvent}
    (h : ingest u state event = .ok state') : Step u state (spoken event) state' := by
  unfold ingest at h
  unfold spoken
  split at h
  · cases h
  split at h
  · cases h
  split at h
  -- An item with text: it waits for its turn.
  · rename_i hadded
    rw [if_pos hadded]
    cases htext : itemText event with
    | none =>
      rw [htext] at h
      cases h
    | some text =>
      rw [htext] at h
      dsimp only at h
      split at h
      · cases h
      split at h
      · cases h
      obtain rfl := Except.ok.inj h
      exact .delta text
  rename_i hadded
  rw [if_neg hadded]
  split at h
  · rename_i hkind
    rw [if_neg hkind, ← Except.ok.inj h]
    exact .other
  rename_i hkind
  rw [not_not] at hkind
  rw [if_pos hkind]
  -- An event of a turn, unless it is one of the assistant's.
  cases hturn : userTurn event with
  | none =>
    rw [hturn] at h
    obtain rfl := Except.ok.inj h
    exact .other
  | some turn =>
    rw [hturn] at h
    dsimp only at h ⊢
    unfold spokenOfTurn
    cases hident : turnIdent turn with
    | none =>
      rw [hident] at h
      cases h
    | some ident =>
      rw [hident] at h
      dsimp only at h ⊢
      split at h
      · cases h
      split at h
      · rename_i hcreated
        rw [if_pos hcreated]
        rw [openTurns_appear] at h
        split at h
        · rename_i hnew
          obtain rfl := Except.ok.inj h
          rw [final_appear] at hnew
          exact .created ident _ (if_pos hnew).symm
        · rename_i hold
          obtain rfl := Except.ok.inj h
          rw [final_appear] at hold
          -- A turn that is known already leaves its place as it is.
          have hstep : Step u state (.created ident) _ := .created ident _ (if_neg hold).symm
          rwa [← openTurns_appear state ident] at hstep
      · rename_i hcreated
        rw [if_neg hcreated]
        cases htext : turnTranscript turn with
        | none =>
          rw [htext] at h
          cases h
        | some text =>
          rw [htext] at h
          exact finish_cases h

/-- A relation that holds of an empty sequence, and with a step before a sequence, holds of every
sequence that is ingested. -/
theorem ingestAll_induction {motive : Collector → List Spoken → Collector → Prop}
    (nil : ∀ state, motive state [] state)
    (cons : ∀ state said state' rest state'', Step u state said state' →
      motive state' rest state'' → motive state (said :: rest) state'')
    {events : List VoiceEvent} {state state' : Collector}
    (h : ingestAll u state events = .ok state') : motive state (events.map spoken) state' := by
  induction events generalizing state with
  | nil =>
    obtain rfl := Except.ok.inj h
    exact nil state
  | cons event events ih =>
    rw [ingestAll] at h
    cases hstep : ingest u state event with
    | error raised =>
      rw [hstep] at h
      cases h
    | ok middle =>
      rw [hstep] at h
      exact cons _ _ _ _ _ (ingest_cases hstep) (ih h)

end Collector

/-! ### What was said in all -/

/-- The texts of the deltas. -/
def deltas : List Spoken → List PyStr
  | [] => []
  | .delta text :: rest => text :: deltas rest
  | _ :: rest => deltas rest

/-- The turns so far, and the turn of one more event when it is new. -/
def addTurn (order : List PyStr) : Spoken → List PyStr
  | .created ident => if ident ∈ order then order else order ++ [ident]
  | .final ident _ => if ident ∈ order then order else order ++ [ident]
  | _ => order

/-- The turns of the user in the order in which they first appear. -/
def appearances (said : List Spoken) : List PyStr := said.foldl addTurn []

/-- The finals so far, and one more when it is the first of its turn. -/
def addFinal (final : List (PyStr × PyStr)) : Spoken → List (PyStr × PyStr)
  | .final ident text => if final.lookup ident = none then final ++ [(ident, text)] else final
  | _ => final

/-- The first finals of the turns in the order in which they arrive. -/
def firstFinals (said : List Spoken) : List (PyStr × PyStr) := said.foldl addFinal []

/-- What the first final of a turn finds pending, and what it leaves. -/
structure Consumption where
  ident : PyStr
  text : PyStr
  before : PyStr
  after : PyStr

/-- The event was the first final of a turn. -/
def consumption (state : Collector) (state' : Collector) : Spoken → Option Consumption
  | .final ident text =>
    if state.final.lookup ident = none then
      some ⟨ident, text, state.pendingText, state'.pendingText⟩
    else none
  | _ => none

/-- The first finals of a run, as they happen. -/
def consumptions (u : CharacterData) : Collector → List VoiceEvent → List Consumption
  | _, [] => []
  | state, event :: events =>
    match state.ingest u event with
    | .error _ => []
    | .ok state' =>
      (consumption state state' (spoken event)).toList ++ consumptions u state' events

/-- The part of the pending text that a final takes: all of its canonical form, or a front of it
after which nothing is pending. -/
def Takes (u : CharacterData) (c : Consumption) (part : PyStr) : Prop :=
  c.before = part ++ c.after ∧
    (part = Collector.canonical u c.text ∨
      (part <+: Collector.canonical u c.text ∧ c.after = []))

section

variable {u : CharacterData} {state state' : Collector} {said : Spoken}

/-- **A step** lists a turn that is new. -/
theorem Collector.Step.order_eq (h : Step u state said state') :
    state'.order = addTurn state.order said := by
  cases h with
  | other => rfl
  | delta text => rfl
  | created ident openTurns h => exact order_appear state ident
  | again ident text h => exact order_appear state ident
  | first ident text pending bytes h hconsume hbytes hlength => exact order_appear state ident

/-- It keeps a final that is new. -/
theorem Collector.Step.final_eq (h : Step u state said state') :
    state'.final = addFinal state.final said := by
  cases h with
  | other => rfl
  | delta text => rfl
  | created ident openTurns h => exact final_appear state ident
  | again ident text h =>
    rw [final_appear, addFinal, if_neg (by simp [h])]
  | first ident text pending bytes h hconsume hbytes hlength =>
    rw [addFinal, if_pos h]

/-- What a final takes is at the front of what is pending. -/
theorem exists_part_of_consume {normalized pending rest : PyStr}
    (h : Collector.consume normalized pending = some rest) :
    ∃ part, pending = part ++ rest ∧
      (part = normalized ∨ (part <+: normalized ∧ rest = [])) := by
  unfold Collector.consume at h
  split at h
  · rename_i hempty
    obtain rfl := Option.some.inj h
    exact ⟨[], hempty, .inr ⟨List.nil_prefix, rfl⟩⟩
  split at h
  · rename_i hfront
    obtain rfl := Option.some.inj h
    exact ⟨normalized, (List.prefix_iff_eq_append.1 hfront.2).symm, .inl rfl⟩
  split at h
  · rename_i hfront
    obtain rfl := Option.some.inj h
    exact ⟨pending, (List.append_nil _).symm, .inr ⟨hfront, rfl⟩⟩
  · cases h

/-- One step takes at most one part off what was pending and what it says. -/
theorem Collector.Step.parts (h : Step u state said state') :
    ∃ parts, List.Forall₂ (Takes u) (consumption state state' said).toList parts ∧
      state.pendingText ++ ((deltas [said]).map (canonical u)).flatten =
        parts.flatten ++ state'.pendingText := by
  cases h with
  | other => exact ⟨[], .nil, by simp [deltas]⟩
  | delta text => exact ⟨[], .nil, by simp [deltas]⟩
  | created ident openTurns h => exact ⟨[], .nil, by simp [deltas]⟩
  | again ident text h =>
    refine ⟨[], ?_, by simp [deltas]⟩
    rw [consumption, if_neg (by simp [h])]
    exact .nil
  | first ident text pending bytes h hconsume hbytes hlength =>
    obtain ⟨part, hpart, htakes⟩ := exists_part_of_consume hconsume
    refine ⟨[part], ?_, by simp [deltas, hpart]⟩
    rw [consumption, if_pos h]
    exact .cons ⟨hpart, htakes⟩ .nil

/-- The deltas, event by event. -/
theorem deltas_cons (said : Spoken) (rest : List Spoken) :
    deltas (said :: rest) = deltas [said] ++ deltas rest := by
  cases said <;> rfl

/-- What was pending and what was heard is what was taken and what is pending. -/
theorem exists_parts {events : List VoiceEvent}
    (h : Collector.ingestAll u state events = .ok state') :
    ∃ parts, List.Forall₂ (Takes u) (consumptions u state events) parts ∧
      state.pendingText ++ ((deltas (events.map spoken)).map (Collector.canonical u)).flatten =
        parts.flatten ++ state'.pendingText := by
  induction events generalizing state with
  | nil =>
    obtain rfl := Except.ok.inj h
    exact ⟨[], .nil, by simp [deltas]⟩
  | cons event events ih =>
    rw [Collector.ingestAll] at h
    cases hstep : state.ingest u event with
    | error raised =>
      rw [hstep] at h
      cases h
    | ok middle =>
      rw [hstep] at h
      obtain ⟨parts, hparts, hheard⟩ := (Collector.ingest_cases hstep).parts
      obtain ⟨parts', hparts', hheard'⟩ := ih h
      refine ⟨parts ++ parts', ?_, ?_⟩
      · rw [consumptions, hstep]
        exact List.rel_append hparts hparts'
      · rw [List.map_cons, deltas_cons, List.map_append, List.flatten_append, ← List.append_assoc,
          hheard, List.append_assoc, hheard', List.flatten_append, List.append_assoc]

/-- A consumption is a first final. -/
theorem Collector.Step.final_consumption (h : Step u state said state') :
    state'.final = state.final ++
      ((consumption state state' said).toList.map fun c ↦ (c.ident, c.text)) := by
  rw [h.final_eq]
  cases said with
  | delta text => simp [addFinal, consumption]
  | created ident => simp [addFinal, consumption]
  | other => simp [addFinal, consumption]
  | final ident text =>
    by_cases hnew : state.final.lookup ident = none
    · rw [addFinal, consumption, if_pos hnew, if_pos hnew]
      rfl
    · rw [addFinal, consumption, if_neg hnew, if_neg hnew]
      exact (List.append_nil _).symm

/-- **The finals** are what has been consumed, in order. -/
theorem final_consumptions {events : List VoiceEvent}
    (h : Collector.ingestAll u state events = .ok state') :
    state'.final =
      state.final ++ (consumptions u state events).map fun c ↦ (c.ident, c.text) := by
  induction events generalizing state with
  | nil =>
    obtain rfl := Except.ok.inj h
    simp [consumptions]
  | cons event events ih =>
    rw [Collector.ingestAll] at h
    cases hstep : state.ingest u event with
    | error raised =>
      rw [hstep] at h
      cases h
    | ok middle =>
      rw [hstep] at h
      rw [ih h, (Collector.ingest_cases hstep).final_consumption, consumptions, hstep,
        List.map_append, List.append_assoc]

/-- The turns of a run, in the order they appeared. -/
theorem order_of_ingestAll {events : List VoiceEvent}
    (h : Collector.ingestAll u state events = .ok state') :
    state'.order = (events.map spoken).foldl addTurn state.order :=
  Collector.ingestAll_induction (motive := fun state said state' ↦
      state'.order = said.foldl addTurn state.order) (fun _ ↦ rfl)
    (fun _ _ _ _ _ hstep hrest ↦ by rw [hrest, hstep.order_eq]; rfl) h

/-- The finals of a run. -/
theorem final_of_ingestAll {events : List VoiceEvent}
    (h : Collector.ingestAll u state events = .ok state') :
    state'.final = (events.map spoken).foldl addFinal state.final :=
  Collector.ingestAll_induction (motive := fun state said state' ↦
      state'.final = said.foldl addFinal state.final) (fun _ ↦ rfl)
    (fun _ _ _ _ _ hstep hrest ↦ by rw [hrest, hstep.final_eq]; rfl) h

/-! ### The turns -/

/-- A turn that is added is there. -/
theorem mem_of_new {order : List PyStr} {ident other : PyStr} :
    ident ∈ (if other ∈ order then order else order ++ [other]) ↔
      ident ∈ order ∨ ident = other := by
  split
  · rename_i hmem
    constructor
    · exact .inl
    · rintro (h | rfl)
      · exact h
      · exact hmem
  · rw [List.mem_append, List.mem_singleton]

/-- A turn is listed when it was created or has a final. -/
theorem mem_addTurn {order : List PyStr} {ident : PyStr} :
    ident ∈ addTurn order said ↔
      ident ∈ order ∨ said = .created ident ∨ ∃ text, said = .final ident text := by
  cases said with
  | delta text => simp [addTurn]
  | other => simp [addTurn]
  | created other =>
    rw [addTurn, mem_of_new]
    simp [eq_comm]
  | final other text =>
    rw [addTurn, mem_of_new]
    simp [eq_comm]

/-- A turn with a final has appeared. -/
def Listed (state : Collector) : Prop :=
  ∀ ident, state.final.lookup ident ≠ none → ident ∈ state.order

/-- A turn has a final when one was said. -/
theorem lookup_addFinal {final : List (PyStr × PyStr)} {ident : PyStr}
    (h : (addFinal final said).lookup ident ≠ none) :
    final.lookup ident ≠ none ∨ ∃ text, said = .final ident text := by
  cases said with
  | delta text => exact .inl h
  | other => exact .inl h
  | created other => exact .inl h
  | final other text =>
    by_cases hnew : final.lookup other = none
    · rw [addFinal, if_pos hnew, List.lookup_append] at h
      by_cases hident : other = ident
      · exact .inr ⟨text, by rw [hident]⟩
      · refine .inl fun hnone ↦ h ?_
        rw [hnone, List.lookup_singleton, if_neg (by simpa using Ne.symm hident)]
        rfl
    · rw [addFinal, if_neg hnew] at h
      exact .inl h

/-- A step keeps every final listed. -/
theorem Listed.step (hlisted : Listed state) (h : Collector.Step u state said state') :
    Listed state' := by
  intro ident hident
  rw [h.order_eq, mem_addTurn]
  rw [h.final_eq] at hident
  rcases lookup_addFinal hident with hold | hnew
  · exact .inl (hlisted ident hold)
  · exact .inr (.inr hnew)

/-- So does a run. -/
theorem listed_of_ingestAll {events : List VoiceEvent}
    (h : Collector.ingestAll u .init events = .ok state) : Listed state := by
  have hrun := Collector.ingestAll_induction (motive := fun state _ state' ↦
      Listed state → Listed state') (fun _ ↦ id)
    (fun _ _ _ _ _ hstep hrest hlisted ↦ hrest (hlisted.step hstep)) h
  exact hrun fun ident hident ↦ absurd rfl hident

/-- A turn that was created is open or has its final. -/
def TurnSettled (state : Collector) (ident : PyStr) : Prop :=
  ident ∈ state.openTurns ∨ state.final.lookup ident ≠ none

/-- A final stays. -/
theorem lookup_addFinal_of_ne_none {final : List (PyStr × PyStr)} {ident : PyStr}
    (h : final.lookup ident ≠ none) : (addFinal final said).lookup ident ≠ none := by
  cases said with
  | delta text => exact h
  | other => exact h
  | created other => exact h
  | final other text =>
    rw [addFinal]
    split
    · rw [List.lookup_append]
      intro hnone
      exact h (Option.or_eq_none_iff.1 hnone).1
    · exact h

/-- A turn that is settled stays so. -/
theorem TurnSettled.step {ident : PyStr} (hsettled : TurnSettled state ident)
    (h : Collector.Step u state said state') : TurnSettled state' ident := by
  rcases hsettled with hopen | hfinal
  · cases h with
    | other => exact .inl hopen
    | delta text => exact .inl hopen
    | created other openTurns h =>
      refine .inl ?_
      show ident ∈ openTurns
      rw [h]
      split
      · exact Finset.mem_insert_of_mem hopen
      · exact hopen
    | again other text h =>
      refine .inl ?_
      rwa [Collector.openTurns_appear]
    | first other text pending bytes h hconsume hbytes hlength =>
      by_cases hident : ident = other
      · refine .inr ?_
        subst hident
        show List.lookup ident (state.final ++ [(ident, text)]) ≠ none
        rw [List.lookup_append, h, List.lookup_singleton, if_pos (by simp)]
        exact Option.some_ne_none _
      · exact .inl (Finset.mem_erase.2 ⟨hident, hopen⟩)
  · refine .inr ?_
    rw [h.final_eq]
    exact lookup_addFinal_of_ne_none hfinal

/-- A turn that is created is listed. -/
theorem settled_of_created {ident : PyStr} (h : Collector.Step u state (.created ident) state') :
    TurnSettled state' ident := by
  cases h with
  | created _ openTurns h =>
    by_cases hnew : state.final.lookup ident = none
    · refine .inl ?_
      show ident ∈ openTurns
      rw [h, if_pos hnew]
      exact Finset.mem_insert_self _ _
    · refine .inr ?_
      rwa [Collector.final_appear]

/-- **Every turn** that was created is settled in the end. -/
theorem settled_of_ingestAll {events : List VoiceEvent} {ident : PyStr}
    (h : Collector.ingestAll u state events = .ok state')
    (hident : .created ident ∈ events.map spoken) : TurnSettled state' ident := by
  have hrun := Collector.ingestAll_induction (motive := fun state said state' ↦
      (TurnSettled state ident → TurnSettled state' ident) ∧
        (.created ident ∈ said → TurnSettled state' ident))
    (fun _ ↦ ⟨id, fun hmem ↦ absurd hmem List.not_mem_nil⟩)
    (fun _ _ _ _ _ hstep hrest ↦ ⟨fun hsettled ↦ hrest.1 (hsettled.step hstep), fun hmem ↦ by
      rcases List.mem_cons.1 hmem with rfl | hmem
      · exact hrest.1 (settled_of_created hstep)
      · exact hrest.2 hmem⟩) h
  exact hrun.2 hident

/-- A first final was said. -/
theorem final_of_lookup {saids : List Spoken} {ident : PyStr} {final : List (PyStr × PyStr)}
    (h : (saids.foldl addFinal final).lookup ident ≠ none) :
    final.lookup ident ≠ none ∨ ∃ text, .final ident text ∈ saids := by
  induction saids generalizing final with
  | nil => exact .inl h
  | cons said saids ih =>
    rcases ih h with hfinal | ⟨text, htext⟩
    · rcases lookup_addFinal hfinal with hold | ⟨text, rfl⟩
      · exact .inl hold
      · exact .inr ⟨text, List.mem_cons_self⟩
    · exact .inr ⟨text, List.mem_cons_of_mem _ htext⟩

/-- A turn without a final adds nothing to the text. -/
theorem spokenText_new {order : List PyStr} {ident : PyStr} {final : List (PyStr × PyStr)}
    (h : ident ∉ order → final.lookup ident = none) :
    spokenText (if ident ∈ order then order else order ++ [ident]) final =
      spokenText order final := by
  split
  · rfl
  · rename_i hnew
    unfold spokenText
    rw [List.filterMap_append, List.filterMap_cons, h hnew]
    simp

/-- Only the first final of a turn changes the text. -/
theorem text_of_step (hlisted : Listed state) (h : Collector.Step u state said state')
    (hnone : consumption state state' said = none) : state'.text = state.text := by
  have hnew : ∀ ident, ident ∉ state.order → state.final.lookup ident = none := by
    intro ident hident
    by_contra hlookup
    exact hident (hlisted ident hlookup)
  unfold Collector.text
  cases h with
  | other => rfl
  | delta text => rfl
  | created ident openTurns h =>
    show spokenText (state.appear ident).order (state.appear ident).final = _
    rw [Collector.order_appear, Collector.final_appear, spokenText_new (hnew ident)]
  | again ident text h =>
    rw [Collector.order_appear, Collector.final_appear, spokenText_new (hnew ident)]
  | first ident text pending bytes h hconsume hbytes hlength =>
    rw [consumption, if_pos h] at hnone
    cases hnone

end

/-- **No spoken text is hidden.** What was heard is what the first finals took, in the order in
which they arrived, and what is still pending; a collector that is ready has nothing pending and
every turn its final; and the text is that of the first finals in the order of the turns, which
nothing else changes. -/
theorem collector_accounts {u : CharacterData} {events : List VoiceEvent} {state : Collector}
    (h : Collector.ingestAll u .init events = .ok state) :
    (∃ parts, List.Forall₂ (Takes u) (consumptions u .init events) parts ∧
      ((deltas (events.map spoken)).map (Collector.canonical u)).flatten =
        parts.flatten ++ state.pendingText) ∧
    ((consumptions u .init events).map fun c ↦ (c.ident, c.text)) =
      firstFinals (events.map spoken) ∧
    (state.ready = true → state.pendingText = [] ∧
      ∀ ident, .created ident ∈ events.map spoken →
        ∃ text, .final ident text ∈ events.map spoken) ∧
    state.text = spokenText (appearances (events.map spoken)) (firstFinals (events.map spoken)) ∧
    ∀ event state', state.ingest u event = .ok state' →
      consumption state state' (spoken event) = none → state'.text = state.text := by
  have hfinal := final_of_ingestAll h
  refine ⟨?_, ?_, fun hready ↦ ?_, ?_, fun event state' hstep hnone ↦ ?_⟩
  · obtain ⟨parts, hparts, hheard⟩ := exists_parts h
    exact ⟨parts, hparts, hheard⟩
  · rw [firstFinals]
    exact (final_consumptions h).symm.trans hfinal
  · simp only [Collector.ready, Bool.and_eq_true, decide_eq_true_eq] at hready
    refine ⟨hready.2, fun ident hident ↦ ?_⟩
    -- A turn that appeared is open or has its final; when none is open, all have.
    rcases settled_of_ingestAll h hident with hopen | hlookup
    · rw [hready.1.2] at hopen
      exact absurd hopen (Finset.notMem_empty ident)
    · rw [hfinal] at hlookup
      rcases final_of_lookup hlookup with hold | hsaid
      · exact absurd rfl hold
      · exact hsaid
  · rw [Collector.text, order_of_ingestAll h, hfinal]
    rfl
  · exact text_of_step (listed_of_ingestAll h) (Collector.ingest_cases hstep) hnone

/-- Unicode's data on the characters of ASCII. -/
def asciiData : CharacterData where
  casefold c :=
    if h : 0x41 ≤ c.val ∧ c.val ≤ 0x5A then
      [⟨c.val + 0x20, Nat.lt_of_le_of_lt (Nat.add_le_add_right h.2 0x20) (by decide)⟩]
    else [c]
  isalnum c := decide (0x30 ≤ c.val ∧ c.val ≤ 0x39) || decide (0x41 ≤ c.val ∧ c.val ≤ 0x5A) ||
    decide (0x61 ≤ c.val ∧ c.val ≤ 0x7A)

/-- A delta, as the user of the collector makes it. -/
def deltaEvent (text : PyStr) : VoiceEvent :=
  [(py "type", .str (py "input_transcript.added")), (py "item", .dict [(py "text", .str text)])]

/-- A final, as the user of the collector makes it. -/
def finalEvent (ident transcript : PyStr) : VoiceEvent :=
  [(py "type", .str (py "turn.done")), (py "turn", .dict [(py "id", .str ident),
    (py "role", .str (py "user")), (py "transcript", .str transcript)])]

/-- A turn that is heard and confirmed. -/
theorem collector_accounts_turn : ∃ state, Collector.ingestAll asciiData .init
    [deltaEvent (py "Call Ann"), finalEvent (py "1") (py " Call Ann.")] = .ok state ∧
    state.text = py "Call Ann." := by
  cases hrun : Collector.ingestAll asciiData .init
      [deltaEvent (py "Call Ann"), finalEvent (py "1") (py " Call Ann.")] with
  | error raised =>
    have hok : (Collector.ingestAll asciiData .init
      [deltaEvent (py "Call Ann"), finalEvent (py "1") (py " Call Ann.")]).isOk = true := by
      decide +kernel
    rw [hrun] at hok
    cases hok
  | ok state =>
    refine ⟨state, rfl, (collector_accounts hrun).2.2.2.1.trans ?_⟩
    decide +kernel

end VibeUsage
