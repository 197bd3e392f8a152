import VibeUsage.Lib.Base64
import VibeUsage.Storage.Nvs

/-!
# The upload of a recording

`write_all` and `write_base64` of `smart_todo_llm.c`: a recording is sent as base64 while it is
read. A call of `write_base64` leaves up to two bytes to the next, fills a buffer of 512 symbols
that is sent whenever it is full, and the last call pads. Whatever the lengths of the calls, what
arrives is the encoding of all that was given, of the length that was announced before the first
call.

`triple_writeBase64Loop` is a call, with what it leaves in the buffer, and `triple_writePieces` the
calls of a recording. `upload_base64` adds that nothing is stored beyond the buffer, also when the
transport fails.
-/

namespace VibeUsage

/-- What the transport will do: how much it takes of what is offered, and when the request is
cancelled. -/
structure Transport where
  /-- What `esp_http_client_write` returns at its `k`-th call. -/
  write : ℕ → List UInt8 → ℤ
  /-- What `cancelled` returns at its `k`-th call. -/
  cancelled : ℕ → Bool

/-- Every write succeeds, with part of the bytes or all of them. -/
structure Transport.Succeeds (transport : Transport) : Prop where
  write : ∀ k bytes, bytes ≠ [] →
    0 < transport.write k bytes ∧ transport.write k bytes ≤ bytes.length
  cancelled : ∀ k, transport.cancelled k = false

/-- What has arrived, and how often the transport was asked. -/
structure Connection where
  sent : List UInt8
  writes : ℕ
  polls : ℕ

/-- How an upload stops. -/
inductive Halt
  | error (e : EspErr)
  /-- A store beyond the end of a local array. -/
  | outOfRange
  deriving DecidableEq

abbrev Upload := Prog Connection Halt

/-- `array[used++] = byte`, of an array of `capacity` bytes of which `used` are in use. -/
def store (capacity : ℕ) (array : List UInt8) (byte : UInt8) : Upload (List UInt8) :=
  if array.length < capacity then pure (array ++ [byte]) else Prog.fail .outOfRange

section

variable (transport : Transport)

/-- `write_all`, to the end of the bytes. -/
def writeAll (bytes : List UInt8) : Upload Unit := fun connection ↦
  if bytes = [] then (.ok (), connection)
  else
    let polled := { connection with polls := connection.polls + 1 }
    if transport.cancelled connection.polls then (.error (.error .timeout), polled)
    else
      let n := transport.write connection.writes bytes
      let asked := { polled with writes := connection.writes + 1 }
      if n ≤ 0 ∨ bytes.length < n then (.error (.error .fail), asked)
      else
        writeAll (bytes.drop n.toNat) { asked with sent := connection.sent ++ bytes.take n.toNat }
termination_by bytes.length
decreasing_by
  rename_i h
  rw [List.length_drop]
  omega

/-- `sizeof(output)` -/
def outputBytes : ℕ := 512

/-- `sizeof(stream->carry)` -/
def carryBytes : ℕ := 3

/-- `"ABCDEFGHIJKLMNOPQRSTUVWXYZabcdefghijklmnopqrstuvwxyz0123456789+/"` -/
def base64Alphabet : List UInt8 := ascii
  ['A', 'B', 'C', 'D', 'E', 'F', 'G', 'H', 'I', 'J', 'K', 'L', 'M', 'N', 'O', 'P', 'Q', 'R', 'S',
    'T', 'U', 'V', 'W', 'X', 'Y', 'Z', 'a', 'b', 'c', 'd', 'e', 'f', 'g', 'h', 'i', 'j', 'k', 'l',
    'm', 'n', 'o', 'p', 'q', 'r', 's', 't', 'u', 'v', 'w', 'x', 'y', 'z', '0', '1', '2', '3', '4',
    '5', '6', '7', '8', '9', '+', '/']

/-- `alphabet[index]` -/
def base64Char (index : UInt8) : UInt8 := base64Alphabet.getD index.toNat 0

/-- The buffer is sent when it has no room for four symbols. -/
def makeRoom (output : List UInt8) : Upload (List UInt8) :=
  if output.length + 4 > outputBytes then do
    writeAll transport output
    pure []
  else pure output

/-- The body of the loop of `write_base64` once there are three bytes. -/
def writeGroup (output carry : List UInt8) : Upload (List UInt8) := do
  let output ← makeRoom transport output
  let output ← store outputBytes output (base64Char (carry.getD 0 0 >>> 2))
  let output ← store outputBytes output
    (base64Char ((carry.getD 0 0 &&& 3) <<< 4 ||| carry.getD 1 0 >>> 4))
  let output ← store outputBytes output
    (base64Char ((carry.getD 1 0 &&& 15) <<< 2 ||| carry.getD 2 0 >>> 6))
  store outputBytes output (base64Char (carry.getD 2 0 &&& 63))

/-- The loop of `write_base64` over what is left of the input: `used` bytes of the buffer, and
`carry_length` bytes carried. -/
def writeBase64Loop (output carry : List UInt8) : List UInt8 → Upload (List UInt8 × List UInt8)
  | [] => pure (output, carry)
  | byte :: input => do
    let carry ← store carryBytes carry byte
    if carry.length ≠ 3 then writeBase64Loop output carry input
    else do
      let output ← writeGroup transport output carry
      writeBase64Loop output [] input

/-- What `write_base64` stores when it finishes with a group of one byte or two. -/
def writePadded (output carry : List UInt8) : Upload (List UInt8) := do
  let output ← store outputBytes output (base64Char (carry.getD 0 0 >>> 2))
  let output ← store outputBytes output (base64Char ((carry.getD 0 0 &&& 3) <<< 4 |||
    if carry.length = 2 then carry.getD 1 0 >>> 4 else 0))
  let output ← store outputBytes output
    (if carry.length = 2 then base64Char ((carry.getD 1 0 &&& 15) <<< 2) else '='.toUInt8)
  store outputBytes output '='.toUInt8

/-- `used ? write_all(client, request, output, used) : ESP_OK` -/
def writeUsed (output : List UInt8) : Upload Unit :=
  if output = [] then pure () else writeAll transport output

/-- `write_base64`, with what is carried to the next call. -/
def writeBase64 (stream input : List UInt8) (finish : Bool) : Upload (List UInt8) := do
  let (output, carry) ← writeBase64Loop transport [] stream input
  if finish = true ∧ carry ≠ [] then do
    let output ← writePadded output carry
    writeUsed transport output
    pure []
  else do
    writeUsed transport output
    pure carry

/-- Calls of `write_base64` with the pieces of the data, and the last one without data. -/
def writePieces (stream : List UInt8) : List (List UInt8) → Upload (List UInt8)
  | [] => writeBase64 transport stream [] true
  | piece :: pieces => do
    let stream ← writeBase64 transport stream piece false
    writePieces stream pieces

end

/-- `encoded` of `smart_todo_transcribe`, for `n` bytes. -/
def encodedLength (n : ℕ) : ℕ := (n + 2) / 3 * 4

/-- `sizeof(audio)` -/
def audioBytes : ℕ := 512

/-- What `smart_todo_transcribe` reads from the partition, piece by piece. -/
def audioPieces (pcm : List UInt8) : List (List UInt8) :=
  if pcm = [] then [] else pcm.take audioBytes :: audioPieces (pcm.drop audioBytes)
termination_by pcm.length
decreasing_by
  rename_i h
  have hpos := List.length_pos_iff.2 h
  rw [List.length_drop]
  unfold audioBytes
  omega

/-- The recording as `smart_todo_transcribe` sends it: the header, the samples, and the end. -/
def uploadRecording (transport : Transport) (wav pcm : List UInt8) : Upload (List UInt8) :=
  writePieces transport [] (wav :: audioPieces pcm)

/-! ### The symbols -/

/-- The alphabet of the source is that of the format. -/
theorem base64Alphabet_getD : ∀ n < 64, base64Alphabet.getD n 0 = Base64.symbol n := by decide

/-- A symbol by its number. -/
theorem base64Char_eq {index : UInt8} {n : ℕ} (h : n = index.toNat) (hn : n < 64) :
    base64Char index = Base64.symbol n := by
  rw [base64Char, ← h, base64Alphabet_getD n hn]

section Symbols

variable (a b c : UInt8)

/-- The first symbol of a group. -/
theorem base64Char_first : base64Char (a >>> 2) = Base64.symbol (Base64.group a b c / 2 ^ 18) := by
  have hindex := Base64.group_div_first a b c
  refine base64Char_eq hindex ?_
  have ha := a.toNat_lt
  have hb := b.toNat_lt
  have hc := c.toNat_lt
  rw [Base64.group]
  omega

/-- The second. -/
theorem base64Char_second : base64Char ((a &&& 3) <<< 4 ||| b >>> 4) =
    Base64.symbol (Base64.group a b c / 2 ^ 12 % 64) :=
  base64Char_eq (Base64.group_div_second a b c) (Nat.mod_lt _ (by decide))

/-- The third. -/
theorem base64Char_third : base64Char ((b &&& 15) <<< 2 ||| c >>> 6) =
    Base64.symbol (Base64.group a b c / 2 ^ 6 % 64) :=
  base64Char_eq (Base64.group_div_third a b c) (Nat.mod_lt _ (by decide))

/-- The fourth. -/
theorem base64Char_fourth : base64Char (c &&& 63) = Base64.symbol (Base64.group a b c % 64) :=
  base64Char_eq (Base64.group_mod a b c) (Nat.mod_lt _ (by decide))

end Symbols

/-! ### Stores and writes -/

/-- A byte that fits is stored. -/
theorem store_of_lt {capacity : ℕ} {array : List UInt8} {byte : UInt8}
    (h : array.length < capacity) : store capacity array byte = pure (array ++ [byte]) := if_pos h

/-- And the program goes on. -/
theorem store_bind {α : Type} {capacity : ℕ} {array : List UInt8} {byte : UInt8}
    (h : array.length < capacity) (f : List UInt8 → Upload α) :
    store capacity array byte >>= f = f (array ++ [byte]) := by
  rw [store_of_lt h]
  rfl

/-- How an upload may stop early: never with a store out of range, and only on a transport that does
not take everything. -/
def Interrupted (transport : Transport) (halt : Halt) : Prop :=
  halt ≠ .outOfRange ∧ ¬ transport.Succeeds

section

variable {transport : Transport}

/-- All the bytes are sent, in their order. -/
theorem triple_writeAll (bytes sent : List UInt8) :
    Prog.Triple (fun connection ↦ connection.sent = sent) (writeAll transport bytes)
      (fun _ connection ↦ connection.sent = sent ++ bytes)
      (fun halt _ ↦ Interrupted transport halt) := by
  -- One write takes a part of the bytes off their front.
  induction hn : bytes.length using Nat.strong_induction_on generalizing bytes sent with
  | _ n ih =>
    intro connection hsent
    rw [writeAll]
    split
    · rename_i hempty
      rw [hempty, List.append_nil]
      exact hsent
    · rename_i hne
      dsimp only
      split
      · rename_i hcancelled
        refine ⟨by decide, fun hsucceeds ↦ ?_⟩
        rw [hsucceeds.cancelled] at hcancelled
        cases hcancelled
      · split
        · rename_i hrefused
          refine ⟨by decide, fun hsucceeds ↦ ?_⟩
          have hwrite := hsucceeds.write connection.writes bytes hne
          omega
        · rename_i htaken
          have hlen : (bytes.drop (transport.write connection.writes bytes).toNat).length < n := by
            rw [List.length_drop]
            omega
          have hrest := ih _ hlen _ (sent ++
            bytes.take (transport.write connection.writes bytes).toNat) rfl
          rw [List.append_assoc, List.take_append_drop] at hrest
          exact hrest _ (by rw [hsent])

/-- Of the bytes given so far, what was sent since `start`, what is in the buffer and what is
carried are the encoding, whatever bytes come after them. -/
def Accounted (start given output carry : List UInt8) (connection : Connection) : Prop :=
  ∀ rest, connection.sent ++ output ++ Base64.encode (carry ++ rest) =
    start ++ Base64.encode (given ++ rest)

/-- The buffer has room for four symbols, or is sent. -/
theorem triple_makeRoom (output : List UInt8) {start given carry : List UInt8} :
    Prog.Triple (Accounted start given output carry) (makeRoom transport output)
      (fun output connection ↦ output.length + 4 ≤ outputBytes ∧
        Accounted start given output carry connection)
      (fun halt _ ↦ Interrupted transport halt) := by
  unfold makeRoom
  split
  · intro connection haccounted
    refine (triple_writeAll output connection.sent).bind (fun _ ↦ ?_) connection rfl
    intro after hafter
    refine ⟨by decide, fun rest ↦ ?_⟩
    rw [hafter, List.append_nil, haccounted]
  · intro connection haccounted
    exact ⟨by omega, haccounted⟩

/-- A complete group is stored in range, and nothing is carried on. -/
theorem triple_writeGroup (output : List UInt8) {start given : List UInt8} (a b c : UInt8) :
    Prog.Triple (Accounted start given output [a, b, c]) (writeGroup transport output [a, b, c])
      (fun output connection ↦ output.length ≤ outputBytes ∧
        Accounted start given output [] connection)
      (fun halt _ ↦ Interrupted transport halt) := by
  refine (triple_makeRoom output).bind fun output ↦ ?_
  rintro connection ⟨hroom, haccounted⟩
  rw [store_bind (by omega), store_bind (by simp; omega), store_bind (by simp; omega),
    store_of_lt (by simp; omega)]
  refine ⟨by simp; omega, fun rest ↦ ?_⟩
  rw [← haccounted, List.nil_append, List.cons_append, List.cons_append, List.cons_append,
    List.nil_append, Base64.encode, ← base64Char_first a b c, ← base64Char_second a b c,
    ← base64Char_third a b c, ← base64Char_fourth a b c]
  simp only [List.append_assoc, List.singleton_append]
  rfl

/-- What one round of the loop leaves to the next. -/
structure Pending (start given output carry : List UInt8) (connection : Connection) : Prop where
  inRange : output.length ≤ outputBytes
  fewer : carry.length < 3
  accounted : Accounted start given output carry connection

/-- **One call** encodes all but two bytes at most, and sends each full buffer. -/
theorem triple_writeBase64Loop (input : List UInt8) {start given output carry : List UInt8} :
    Prog.Triple (Pending start given output carry) (writeBase64Loop transport output carry input)
      (fun pair ↦ Pending start (given ++ input) pair.1 pair.2)
      (fun halt _ ↦ Interrupted transport halt) := by
  induction input generalizing given output carry with
  | nil =>
    rw [List.append_nil]
    exact fun _ ↦ id
  | cons byte input ih =>
    rintro connection ⟨houtput, hcarry, haccounted⟩
    have hroom : carry.length < carryBytes := hcarry
    rw [writeBase64Loop, store_bind hroom]
    have hbyte : Accounted start (given ++ [byte]) output (carry ++ [byte]) connection := by
      intro rest
      rw [List.append_assoc carry, List.append_assoc given, haccounted]
    rw [List.append_cons given]
    split
    · rename_i hmore
      refine ih connection ⟨houtput, ?_, hbyte⟩
      rw [List.length_append, List.length_singleton] at hmore ⊢
      omega
    · rename_i hfull
      rw [not_not] at hfull
      obtain ⟨a, b, c, habc⟩ := List.length_eq_three.1 hfull
      rw [habc] at hbyte ⊢
      refine (triple_writeGroup output a b c).bind (fun output ↦ ?_) connection hbyte
      rintro after ⟨hlen, hafter⟩
      exact ih after ⟨hlen, by decide, hafter⟩

/-- The symbols of the last group, which has one byte or two. -/
theorem encode_carry {carry : List UInt8} (hne : carry ≠ []) (hlen : carry.length < 3) :
    Base64.encode carry = [base64Char (carry.getD 0 0 >>> 2),
      base64Char ((carry.getD 0 0 &&& 3) <<< 4 |||
        if carry.length = 2 then carry.getD 1 0 >>> 4 else 0),
      if carry.length = 2 then base64Char ((carry.getD 1 0 &&& 15) <<< 2) else '='.toUInt8,
      '='.toUInt8] := by
  rcases carry with _ | ⟨a, _ | ⟨b, _ | ⟨c, carry⟩⟩⟩
  · exact absurd rfl hne
  · rw [Base64.encode, ← base64Char_first a 0 0, ← base64Char_second a 0 0]
    rfl
  · have hthird := base64Char_third a b 0
    rw [UInt8.zero_shiftRight, UInt8.or_zero] at hthird
    rw [Base64.encode, ← base64Char_first a b 0, ← base64Char_second a b 0, ← hthird]
    rfl
  · simp at hlen
    omega

/-- What is in the buffer is sent. -/
theorem triple_writeUsed (output sent : List UInt8) :
    Prog.Triple (fun connection ↦ connection.sent = sent) (writeUsed transport output)
      (fun _ connection ↦ connection.sent = sent ++ output)
      (fun halt _ ↦ Interrupted transport halt) := by
  unfold writeUsed
  split
  · rename_i hempty
    rw [hempty, List.append_nil]
    exact fun _ ↦ id
  · exact triple_writeAll output sent

/-- A call with a piece of the data. -/
theorem triple_writeBase64 (stream input : List UInt8) {start given : List UInt8} :
    Prog.Triple (Pending start given [] stream) (writeBase64 transport stream input false)
      (Pending start (given ++ input) [])
      (fun halt _ ↦ Interrupted transport halt) := by
  refine (triple_writeBase64Loop input).bind ?_
  rintro ⟨output, carry⟩ connection ⟨-, hfewer, haccounted⟩
  refine (triple_writeUsed output connection.sent).bind (fun _ ↦ ?_) connection rfl
  intro after hafter
  refine ⟨Nat.zero_le _, hfewer, fun rest ↦ ?_⟩
  rw [hafter, List.append_nil, haccounted]

/-- The last call, which has no data. -/
theorem triple_writeBase64_finish (stream : List UInt8) {start given : List UInt8} :
    Prog.Triple (Pending start given [] stream) (writeBase64 transport stream [] true)
      (fun left connection ↦ left = [] ∧ connection.sent = start ++ Base64.encode given)
      (fun halt _ ↦ Interrupted transport halt) := by
  rintro connection ⟨-, hfewer, haccounted⟩
  have hall := haccounted []
  rw [List.append_nil, List.append_nil, List.append_nil] at hall
  have hloop : Prog.Triple (fun after ↦ after = connection) (writeBase64Loop transport [] stream [])
      (fun pair after ↦ pair = ([], stream) ∧ after = connection)
      (fun halt _ ↦ Interrupted transport halt) := fun _ hafter ↦ ⟨rfl, hafter⟩
  refine hloop.bind ?_ connection rfl
  rintro _ _ ⟨rfl, rfl⟩
  dsimp only
  split
  · rename_i hcarry
    -- The last group is padded.
    unfold writePadded
    rw [store_bind (by decide), store_bind (by simp [outputBytes]),
      store_bind (by simp [outputBytes]), store_of_lt (by simp [outputBytes])]
    refine (triple_writeUsed _ _).bind (fun _ ↦ ?_) _ rfl
    intro after hafter
    rw [← hall, encode_carry hcarry.2 hfewer]
    exact ⟨rfl, hafter⟩
  · rename_i hcarry
    have hempty : stream = [] := by
      by_contra hne
      exact hcarry ⟨rfl, hne⟩
    refine (triple_writeUsed _ _).bind (fun _ ↦ ?_) _ rfl
    intro after hafter
    rw [← hall, hempty]
    exact ⟨rfl, hafter⟩

/-- **The calls** of a recording, one after the other. -/
theorem triple_writePieces (pieces : List (List UInt8)) {start given stream : List UInt8} :
    Prog.Triple (Pending start given [] stream) (writePieces transport stream pieces)
      (fun left connection ↦ left = [] ∧
        connection.sent = start ++ Base64.encode (given ++ pieces.flatten))
      (fun halt _ ↦ Interrupted transport halt) := by
  induction pieces generalizing given stream with
  | nil =>
    rw [List.flatten_nil, List.append_nil]
    exact triple_writeBase64_finish stream
  | cons piece pieces ih =>
    rw [writePieces, List.flatten_cons, ← List.append_assoc]
    exact (triple_writeBase64 stream piece).bind fun stream ↦ ih

end

/-! ### The upload -/

/-- A recording that comes to its end has been sent. -/
theorem ends_writePieces (transport : Transport) (pieces : List (List UInt8))
    (connection : Connection) :
    Prog.Ends
      (fun left after ↦ left = [] ∧ after.sent = connection.sent ++ Base64.encode pieces.flatten)
      (fun halt _ ↦ Interrupted transport halt) (writePieces transport [] pieces connection) := by
  have hstart : Pending connection.sent [] [] [] connection := by
    refine ⟨Nat.zero_le _, by decide, fun rest ↦ ?_⟩
    rw [List.append_nil]
  exact triple_writePieces pieces connection hstart

/-- The pieces are the recording. -/
theorem flatten_audioPieces (pcm : List UInt8) : (audioPieces pcm).flatten = pcm := by
  induction pcm using audioPieces.induct with
  | case1 =>
    rw [audioPieces, if_pos rfl]
    rfl
  | case2 pcm hne ih =>
    rw [audioPieces, if_neg hne, List.flatten_cons, ih, List.take_append_drop]

/-- A recording that was sent is all of it, in as many symbols as were announced for it. -/
theorem sent_of_uploadRecording {transport : Transport} {wav pcm left : List UInt8}
    {connection after : Connection}
    (h : uploadRecording transport wav pcm connection = (.ok left, after)) :
    after.sent = connection.sent ++ Base64.encode (wav ++ pcm) ∧
      (Base64.encode (wav ++ pcm)).length = encodedLength (wav.length + pcm.length) := by
  have hends := ends_writePieces transport (wav :: audioPieces pcm) connection
  unfold uploadRecording at h
  rw [h, List.flatten_cons, flatten_audioPieces] at hends
  refine ⟨hends.2, ?_⟩
  rw [Base64.length_encode, List.length_append, encodedLength]

/-- **However the data is cut into calls, and however little the transport takes at a time, what
arrives is the encoding of the data, as long as was announced; and nothing is ever stored beyond the
buffer.** -/
theorem upload_base64 (transport : Transport) (pieces : List (List UInt8))
    (connection : Connection) :
    (writePieces transport [] pieces connection).1 ≠ .error .outOfRange ∧
    (transport.Succeeds → ∃ after, writePieces transport [] pieces connection = (.ok [], after) ∧
      after.sent = connection.sent ++ Base64.encode pieces.flatten ∧
      (Base64.encode pieces.flatten).length = encodedLength pieces.flatten.length) := by
  have hends := ends_writePieces transport pieces connection
  rcases hrun : writePieces transport [] pieces connection with ⟨halt | left, after⟩
  · rw [hrun] at hends
    refine ⟨fun hout ↦ hends.1 (Except.error.inj hout), fun hsucceeds ↦ ?_⟩
    exact absurd hsucceeds hends.2
  · rw [hrun] at hends
    obtain ⟨rfl, hsent⟩ := hends
    exact ⟨fun hout ↦ (by cases hout), fun _ ↦ ⟨after, rfl, hsent, Base64.length_encode _⟩⟩

/-- A transport that takes one byte at a time. -/
theorem upload_base64_bytewise :
    ∃ after, writePieces ⟨fun _ _ ↦ 1, fun _ ↦ false⟩ [] [[0x4D], [0x61, 0x6E, 0x79]] ⟨[], 0, 0⟩ =
        (.ok [], after) ∧
      after.sent = ascii ['T', 'W', 'F', 'u', 'e', 'Q', '=', '='] := by
  have hsucceeds : Transport.Succeeds ⟨fun _ _ ↦ 1, fun _ ↦ false⟩ := by
    refine ⟨fun k bytes hne ↦ ⟨Int.one_pos, ?_⟩, fun _ ↦ rfl⟩
    have hpos := List.length_pos_iff.2 hne
    show (1 : ℤ) ≤ bytes.length
    omega
  obtain ⟨after, hrun, hsent, -⟩ :=
    (upload_base64 _ [[0x4D], [0x61, 0x6E, 0x79]] ⟨[], 0, 0⟩).2 hsucceeds
  exact ⟨after, hrun, hsent.trans (by decide)⟩

end VibeUsage
