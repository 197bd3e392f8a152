import VibeUsage.Lib.CString
import VibeUsage.Lib.Decimal
import VibeUsage.Lib.Python.Value

/-!
# JSON in Python

`dumpsCompact` is `json.dumps(value, ensure_ascii=False, separators=(",", ":"))`. What it writes is
a JSON text of the value that `spell` names, and not much longer than that (`isText_dumpsCompact`).

What `json.loads` does with its hooks is the caller's: a `JsonTree` is what it reads, the pairs of
an object as they come.

The writer is compared with the grammar of `Lib/Json` in one induction over the value; lengths are
bounded in the same induction, since a gateway may refuse what is too long. Floats are written as
the caller says.
-/

namespace Python

open Rfc8259

/-! ### Characters of ASCII -/

/-- The code point of a character. -/
def point (c : Char) : CodePoint := ⟨c.toNat, toNat_lt c⟩

/-- Texts are encoded one after the other. -/
theorem encodeUtf8_append (s t : PyStr) :
    encodeUtf8 (s ++ t) = (encodeUtf8 s).bind fun a ↦ (encodeUtf8 t).map (a ++ ·) := by
  induction s with
  | nil => simp [encodeUtf8]
  | cons c s ih =>
    rw [List.cons_append, encodeUtf8, encodeUtf8, ih]
    split
    · cases encodeUtf8 s <;> cases encodeUtf8 t <;> simp
    · rfl

/-- Two texts that have encodings, one after the other. -/
theorem encodeUtf8_append_of {s t : PyStr} {a b : List UInt8} (hs : encodeUtf8 s = some a)
    (ht : encodeUtf8 t = some b) : encodeUtf8 (s ++ t) = some (a ++ b) := by
  rw [encodeUtf8_append, hs, ht]
  rfl

/-- ASCII is encoded as it is. -/
theorem encodeUtf8_ascii {cs : List Char} (h : ∀ c ∈ cs, c.toNat < 0x80) :
    encodeUtf8 (cs.map point) = some (ascii cs) := by
  induction cs with
  | nil => rfl
  | cons c cs ih =>
    have hc : c.toNat < 0x80 := h c List.mem_cons_self
    have hscalar : Utf8.IsScalar (point c).val := Utf8.isScalar_toNat c
    have hone : Utf8.encode (point c).val = [c.toUInt8] := by
      rw [Utf8.encode, if_pos (show (point c).val < 0x80 from hc)]
      rfl
    rw [List.map_cons, encodeUtf8, if_pos hscalar, hone,
      ih fun d hd ↦ h d (List.mem_cons_of_mem _ hd)]
    rfl

/-! ### Writing -/

/-- A character of a string, as `json.encoder` writes it. -/
def escapeChar (c : CodePoint) : PyStr :=
  if c.val = 0x22 then py "\\\""
  else if c.val = 0x5C then py "\\\\"
  else if c.val = 0x0A then py "\\n"
  else if c.val = 0x0D then py "\\r"
  else if c.val = 0x09 then py "\\t"
  else if c.val = 0x0C then py "\\f"
  else if c.val = 0x08 then py "\\b"
  else if c.val < 0x20 then
    py "\\u00" ++ [point (Nat.digitChar (c.val / 16)), point (Nat.digitChar (c.val % 16))]
  else [c]

/-- `encode_basestring`. -/
def dumpsStr (text : PyStr) : PyStr := py "\"" ++ text.flatMap escapeChar ++ py "\""

/-- `int.__repr__`. -/
def intText (n : ℤ) : PyStr :=
  (if n < 0 then py "-" else []) ++ (Nat.toDigits 10 n.natAbs).map point

mutual

/-- `json.dumps(value, ensure_ascii=False, separators=(",", ":"))`, when `repr` writes the floats.
-/
def dumpsCompact (repr : PyFloat → PyStr) : PyValue → PyStr
  | .none => py "null"
  | .bool value => if value then py "true" else py "false"
  | .int value => intText value
  | .float value => repr value
  | .str text => dumpsStr text
  | .list items => py "[" ++ dumpsItems repr items ++ py "]"
  | .dict entries => py "\x7b" ++ dumpsEntries repr entries ++ py "\x7d"

def dumpsItems (repr : PyFloat → PyStr) : List PyValue → PyStr
  | [] => []
  | [v] => dumpsCompact repr v
  | v :: u :: vs => dumpsCompact repr v ++ py "," ++ dumpsItems repr (u :: vs)

def dumpsEntries (repr : PyFloat → PyStr) : List (PyStr × PyValue) → PyStr
  | [] => []
  | [(key, v)] => dumpsStr key ++ py ":" ++ dumpsCompact repr v
  | (key, v) :: e :: es =>
    dumpsStr key ++ py ":" ++ dumpsCompact repr v ++ py "," ++ dumpsEntries repr (e :: es)

end

/-! ### Reading -/

/-- What `json.loads` hands to its hooks: an object is its pairs, and `NaN`, `Infinity` and
`-Infinity` are constants. -/
inductive JsonTree
  | none
  | bool (value : Bool)
  | int (value : ℤ)
  | float (value : PyFloat)
  | constant (name : PyStr)
  | str (text : PyStr)
  | list (items : List JsonTree)
  | pairs (entries : List (PyStr × JsonTree))

namespace JsonTree

mutual

/-- The tree of a text that `json.dumps` wrote for a value. -/
def ofValue : PyValue → JsonTree
  | .none => .none
  | .bool value => .bool value
  | .int value => .int value
  | .float (.finite value) => .float (.finite value)
  | .float .infinity => .constant (py "Infinity")
  | .float .negInfinity => .constant (py "-Infinity")
  | .float .nan => .constant (py "NaN")
  | .str text => .str text
  | .list items => .list (ofItems items)
  | .dict entries => .pairs (ofEntries entries)

def ofItems : List PyValue → List JsonTree
  | [] => []
  | v :: vs => ofValue v :: ofItems vs

def ofEntries : List (PyStr × PyValue) → List (PyStr × JsonTree)
  | [] => []
  | (key, v) :: entries => (key, ofValue v) :: ofEntries entries

end

end JsonTree

/-- The module `json`. -/
structure JsonModule where
  /-- `json.loads` of a `str`, up to its hooks: none when it raises. -/
  loads : PyStr → Option JsonTree
  /-- `json.loads` of `bytes`. -/
  loadsBytes : List UInt8 → Option JsonTree
  /-- `json.dumps(value)`: none when it raises. -/
  dumps : PyValue → Option PyStr
  /-- `float.__repr__`. -/
  repr : PyFloat → PyStr

/-! ### What is written -/

mutual

/-- The value of RFC 8259 of a Python value, when it has no float and no surrogate. -/
def spell : PyValue → Option Value
  | .none => some .null
  | .bool value => some (.bool value)
  | .int value =>
    some (.number ((if value < 0 then [0x2D] else []) ++ decimalText value.natAbs))
  | .float _ => none
  | .str text => (encodeUtf8 text).map .string
  | .list items => (spellItems items).map .array
  | .dict entries => (spellEntries entries).map .object

def spellItems : List PyValue → Option (List Value)
  | [] => some []
  | v :: vs => do
    let w ← spell v
    return w :: (← spellItems vs)

def spellEntries : List (PyStr × PyValue) → Option (List (List UInt8 × Value))
  | [] => some []
  | (key, v) :: entries => do
    let name ← encodeUtf8 key
    let w ← spell v
    return (name, w) :: (← spellEntries entries)

end

mutual

/-- The bytes that a value needs at most. -/
def room : Value → ℕ
  | .null => 4
  | .bool _ => 5
  | .number text => text.length
  | .string text => 6 * text.length + 2
  | .array items => roomItems items + 2
  | .object members => roomMembers members + 2

def roomItems : List Value → ℕ
  | [] => 0
  | v :: vs => room v + 1 + roomItems vs

def roomMembers : List (List UInt8 × Value) → ℕ
  | [] => 0
  | (name, v) :: members => 6 * name.length + 2 + 1 + room v + 1 + roomMembers members

end

/-! ### Strings -/

/-- A text that can be encoded has no surrogate. -/
theorem encodeUtf8_cons {c : CodePoint} {text : PyStr} {bytes : List UInt8}
    (h : encodeUtf8 (c :: text) = some bytes) :
    Utf8.IsScalar c.val ∧ ∃ rest, encodeUtf8 text = some rest ∧ bytes =
      Utf8.encode c.val ++ rest := by
  rw [encodeUtf8] at h
  split at h
  · rename_i hscalar
    obtain ⟨rest, hrest, rfl⟩ := Option.map_eq_some_iff.1 h
    exact ⟨hscalar, rest, hrest, rfl⟩
  · cases h

/-- A two-character escape. -/
theorem chars_escape {e d : UInt8} {n : ℕ} (h : simpleEscape? e = some d)
    (hn : Utf8.encode n = [d]) {raw text : List UInt8} (rest : Chars raw text) :
    Chars ([0x5C, e] ++ raw) (Utf8.encode n ++ text) := by
  rw [hn]
  exact .escape h rest

/-- The escape of a control character. -/
theorem chars_control {n : ℕ} (h : n < 0x20) {raw text : List UInt8} (rest : Chars raw text) :
    Chars ([0x5C, 0x75, 0x30, 0x30, (Nat.digitChar (n / 16)).toUInt8,
      (Nat.digitChar (n % 16)).toUInt8] ++ raw) (Utf8.encode n ++ text) := by
  have hhex : ∀ n < 0x20, hex4? 0x30 0x30 (Nat.digitChar (n / 16)).toUInt8
      (Nat.digitChar (n % 16)).toUInt8 = some n := by decide
  have hscalar : Utf8.IsScalar n := by
    unfold Utf8.IsScalar
    omega
  rw [← Utf8.utf8EncodeChar_ofNat hscalar]
  refine .unicode _ ?_ rest
  rw [hhex n h, Utf8.toNat_ofNat hscalar]

/-- **A written character is a `char`**, at most six times as long as the character. -/
theorem chars_escapeChar {c : CodePoint} (h : Utf8.IsScalar c.val) :
    ∃ raw, encodeUtf8 (escapeChar c) = some raw ∧ raw.length ≤ 6 * (Utf8.encode c.val).length ∧
      ∀ rest text, Chars rest text → Chars (raw ++ rest) (Utf8.encode c.val ++ text) := by
  have hpos : 1 ≤ (Utf8.encode c.val).length := by
    unfold Utf8.encode
    split_ifs <;> simp
  have hescape : ∀ {e d : UInt8} {n : ℕ} {s : PyStr}, c.val = n → encodeUtf8 s = some [0x5C, e] →
      simpleEscape? e = some d → Utf8.encode n = [d] →
      ∃ raw, encodeUtf8 s = some raw ∧ raw.length ≤ 6 * (Utf8.encode c.val).length ∧
        ∀ rest text, Chars rest text → Chars (raw ++ rest) (Utf8.encode c.val ++ text) := by
    intro e d n s hval hs he hn
    refine ⟨_, hs, ?_, fun rest text hrest ↦ ?_⟩
    · simp only [List.length_cons, List.length_nil]
      omega
    · rw [hval]
      exact chars_escape he hn hrest
  unfold escapeChar
  -- The seven characters with an escape of their own, the other controls, and what is written as it
  -- is.
  split_ifs with hquote hslash hnewline hreturn htab hfeed hback hcontrol
  · exact hescape (e := 0x22) (d := 0x22) hquote (by decide) (by decide) (by decide)
  · exact hescape (e := 0x5C) (d := 0x5C) hslash (by decide) (by decide) (by decide)
  · exact hescape (e := 0x6E) (d := 0x0A) hnewline (by decide) (by decide) (by decide)
  · exact hescape (e := 0x72) (d := 0x0D) hreturn (by decide) (by decide) (by decide)
  · exact hescape (e := 0x74) (d := 0x09) htab (by decide) (by decide) (by decide)
  · exact hescape (e := 0x66) (d := 0x0C) hfeed (by decide) (by decide) (by decide)
  · exact hescape (e := 0x62) (d := 0x08) hback (by decide) (by decide) (by decide)
  · have hdigits : ∀ n < 0x20, (Nat.digitChar (n / 16)).toNat < 0x80 ∧
        (Nat.digitChar (n % 16)).toNat < 0x80 := by decide
    have htext : encodeUtf8 (py "\\u00" ++ [point (Nat.digitChar (c.val / 16)),
        point (Nat.digitChar (c.val % 16))]) = some [0x5C, 0x75, 0x30, 0x30,
          (Nat.digitChar (c.val / 16)).toUInt8, (Nat.digitChar (c.val % 16)).toUInt8] := by
      have hascii : ∀ d ∈ [Nat.digitChar (c.val / 16), Nat.digitChar (c.val % 16)],
          d.toNat < 0x80 := by
        simpa using hdigits c.val hcontrol
      have hlast := encodeUtf8_ascii hascii
      exact encodeUtf8_append_of (a := [0x5C, 0x75, 0x30, 0x30]) (by decide) hlast
    refine ⟨_, htext, ?_, fun rest text hrest ↦ chars_control hcontrol hrest⟩
    simp only [List.length_cons, List.length_nil]
    omega
  · refine ⟨Utf8.encode c.val, ?_, by omega, fun rest text hrest ↦ ?_⟩
    · rw [encodeUtf8, if_pos h, encodeUtf8]
      simp
    · have hchar : (Char.ofNat c.val).toNat = c.val := Utf8.toNat_ofNat h
      rw [← Utf8.utf8EncodeChar_ofNat h]
      refine .unescaped _ (by omega) ?_ ?_ hrest
      · intro heq
        rw [heq] at hchar
        exact hquote hchar.symm
      · intro heq
        rw [heq] at hchar
        exact hslash hchar.symm

/-- The characters between the quotation marks. -/
theorem chars_flatMap_escapeChar {text : PyStr} {bytes : List UInt8}
    (h : encodeUtf8 text = some bytes) :
    ∃ raw, encodeUtf8 (text.flatMap escapeChar) = some raw ∧ raw.length ≤ 6 * bytes.length ∧
      Chars raw bytes := by
  induction text generalizing bytes with
  | nil =>
    obtain rfl : [] = bytes := Option.some.inj h
    exact ⟨[], rfl, le_rfl, .nil⟩
  | cons c text ih =>
    obtain ⟨hscalar, rest, hrest, rfl⟩ := encodeUtf8_cons h
    obtain ⟨raw, hraw, hlen, hchars⟩ := ih hrest
    obtain ⟨first, hfirst, hfirstLen, hcons⟩ := chars_escapeChar hscalar
    refine ⟨first ++ raw, ?_, ?_, hcons _ _ hchars⟩
    · rw [List.flatMap_cons]
      exact encodeUtf8_append_of hfirst hraw
    · rw [List.length_append, List.length_append]
      omega

/-- **A text is written** as a string of the grammar, of bounded length. -/
theorem isString_dumpsStr {text : PyStr} {bytes : List UInt8} (h : encodeUtf8 text = some bytes) :
    ∃ t, encodeUtf8 (dumpsStr text) = some t ∧ IsString bytes t ∧ t.length ≤
      6 * bytes.length + 2 := by
  obtain ⟨raw, hraw, hlen, hchars⟩ := chars_flatMap_escapeChar h
  have hquote : encodeUtf8 (py "\"") = some [0x22] := by decide
  refine ⟨[0x22] ++ raw ++ [0x22], ?_, ⟨raw, hchars, rfl⟩, ?_⟩
  · exact encodeUtf8_append_of (encodeUtf8_append_of hquote hraw) hquote
  · simp only [List.length_append, List.length_cons, List.length_nil]
    omega

/-! ### Values -/

/-- An integer is written in digits, with its sign. -/
theorem encodeUtf8_intText (n : ℤ) : encodeUtf8 (intText n) =
    some ((if n < 0 then [0x2D] else []) ++ decimalText n.natAbs) := by
  have hsign : encodeUtf8 (if n < 0 then py "-" else []) =
      some (if n < 0 then [0x2D] else []) := by
    split
    · decide
    · rfl
  refine encodeUtf8_append_of hsign (encodeUtf8_ascii fun c hc ↦ ?_)
  have hdigit := Nat.isDigit_of_mem_toDigits (by decide) (by decide) hc
  rw [Char.isDigit, Bool.and_eq_true, decide_eq_true_eq, decide_eq_true_eq] at hdigit
  exact Nat.lt_of_le_of_lt (UInt32.le_iff_toNat_le.1 hdigit.2) (by decide)

/-- That is a number of the grammar. -/
theorem isNumber_intText (n : ℤ) :
    IsNumber ((if n < 0 then [0x2D] else []) ++ decimalText n.natAbs) := by
  split
  · exact isNumber_neg_of_isInt (isInt_decimalText _)
  · exact isNumber_decimalText _

/-- Items are spelled one by one. -/
theorem spellItems_cons {v : PyValue} {vs : List PyValue} {ws : List Value}
    (h : spellItems (v :: vs) = some ws) :
    ∃ w ws', spell v = some w ∧ spellItems vs = some ws' ∧ ws = w :: ws' := by
  rw [spellItems] at h
  obtain ⟨w, hw, h⟩ := Option.bind_eq_some_iff.1 h
  obtain ⟨ws', hws', h⟩ := Option.bind_eq_some_iff.1 h
  exact ⟨w, ws', hw, hws', (Option.some.inj h).symm⟩

/-- Entries are spelled one by one. -/
theorem spellEntries_cons {key : PyStr} {v : PyValue} {entries : List (PyStr × PyValue)}
    {members : List (List UInt8 × Value)} (h : spellEntries ((key, v) :: entries) = some members) :
    ∃ name w members', encodeUtf8 key = some name ∧ spell v = some w ∧
      spellEntries entries = some members' ∧ members = (name, w) :: members' := by
  rw [spellEntries] at h
  obtain ⟨name, hname, h⟩ := Option.bind_eq_some_iff.1 h
  obtain ⟨w, hw, h⟩ := Option.bind_eq_some_iff.1 h
  obtain ⟨members', hmembers', h⟩ := Option.bind_eq_some_iff.1 h
  exact ⟨name, w, members', hname, hw, hmembers', (Option.some.inj h).symm⟩

/-- A text between two brackets. -/
theorem encodeUtf8_between {opening closing : String} {text : PyStr} {a b : UInt8}
    {t : List UInt8} (ha : encodeUtf8 (py opening) = some [a])
    (hb : encodeUtf8 (py closing) = some [b]) (ht : encodeUtf8 text = some t) :
    encodeUtf8 (py opening ++ text ++ py closing) = some (a :: t ++ [b]) :=
  encodeUtf8_append_of (encodeUtf8_append_of ha ht) hb

mutual

/-- **What `json.dumps` writes is a JSON text** of the value. -/
theorem isText_dumpsCompact (repr : PyFloat → PyStr) : ∀ (v : PyValue) (w : Value),
    spell v = some w → ∃ t, encodeUtf8 (dumpsCompact repr v) = some t ∧ IsText w t ∧
      t.length ≤ room w
  | .none, _, h => by
    obtain rfl := Option.some.inj h
    exact ⟨[0x6E, 0x75, 0x6C, 0x6C], show encodeUtf8 (py "null") = _ by decide, rfl, by decide⟩
  | .bool true, _, h => by
    obtain rfl := Option.some.inj h
    exact ⟨[0x74, 0x72, 0x75, 0x65], show encodeUtf8 (py "true") = _ by decide, rfl, by decide⟩
  | .bool false, _, h => by
    obtain rfl := Option.some.inj h
    exact ⟨[0x66, 0x61, 0x6C, 0x73, 0x65], show encodeUtf8 (py "false") = _ by decide, rfl, by
      decide⟩
  | .int n, _, h => by
    obtain rfl := Option.some.inj h
    exact ⟨_, encodeUtf8_intText n, ⟨rfl, isNumber_intText n⟩, le_rfl⟩
  | .float _, _, h => by cases h
  | .str text, _, h => by
    obtain ⟨bytes, hbytes, rfl⟩ := Option.map_eq_some_iff.1 h
    exact isString_dumpsStr hbytes
  | .list items, _, h => by
    obtain ⟨ws, hws, rfl⟩ := Option.map_eq_some_iff.1 h
    obtain ⟨t, ht, htext, hlen⟩ := isItems_dumpsItems repr items ws hws
    refine ⟨_, encodeUtf8_between (by decide) (by decide) ht, ⟨t, rfl, htext⟩, ?_⟩
    simp only [List.length_append, List.length_cons, List.length_nil, room]
    omega
  | .dict entries, _, h => by
    obtain ⟨members, hmembers, rfl⟩ := Option.map_eq_some_iff.1 h
    obtain ⟨t, ht, htext, hlen⟩ := isMembers_dumpsEntries repr entries members hmembers
    refine ⟨_, encodeUtf8_between (by decide) (by decide) ht, ⟨t, rfl, htext⟩, ?_⟩
    simp only [List.length_append, List.length_cons, List.length_nil, room]
    omega

/-- **The items of a list** are written as the grammar has them. -/
theorem isItems_dumpsItems (repr : PyFloat → PyStr) : ∀ (vs : List PyValue) (ws : List Value),
    spellItems vs = some ws → ∃ t, encodeUtf8 (dumpsItems repr vs) = some t ∧ IsItems ws t ∧
      t.length ≤ roomItems ws
  | [], _, h => by
    obtain rfl := Option.some.inj h
    exact ⟨[], rfl, Ws.nil, le_rfl⟩
  | [v], _, h => by
    obtain ⟨w, ws', hw, hws', rfl⟩ := spellItems_cons h
    obtain rfl := Option.some.inj hws'
    obtain ⟨t, ht, htext, hlen⟩ := isText_dumpsCompact repr v w hw
    refine ⟨t, ht, ⟨[], t, [], Ws.nil, htext, Ws.nil, by simp⟩, ?_⟩
    simp only [roomItems]
    omega
  | v :: u :: vs, _, h => by
    obtain ⟨w, ws', hw, hws', rfl⟩ := spellItems_cons h
    obtain ⟨t, ht, htext, hlen⟩ := isText_dumpsCompact repr v w hw
    obtain ⟨r, hr, hitems, hlen'⟩ := isItems_dumpsItems repr (u :: vs) ws' hws'
    obtain ⟨w', ws'', -, -, rfl⟩ := spellItems_cons hws'
    refine ⟨t ++ [0x2C] ++ r, ?_, ⟨[], t, [], r, Ws.nil, htext, Ws.nil, hitems, by simp⟩, ?_⟩
    · exact encodeUtf8_append_of (encodeUtf8_append_of ht (by decide)) hr
    · rw [roomItems]
      simp only [List.length_append, List.length_cons, List.length_nil]
      omega

/-- **The entries of a dict** are written as the grammar has them. -/
theorem isMembers_dumpsEntries (repr : PyFloat → PyStr) :
    ∀ (entries : List (PyStr × PyValue)) (members : List (List UInt8 × Value)),
      spellEntries entries = some members → ∃ t, encodeUtf8 (dumpsEntries repr entries) = some t ∧
        IsMembers members t ∧ t.length ≤ roomMembers members
  | [], _, h => by
    obtain rfl := Option.some.inj h
    exact ⟨[], rfl, Ws.nil, le_rfl⟩
  | [(key, v)], _, h => by
    obtain ⟨name, w, members', hname, hw, hmembers', rfl⟩ := spellEntries_cons h
    obtain rfl := Option.some.inj hmembers'
    obtain ⟨s, hs, hstring, hlen⟩ := isString_dumpsStr hname
    obtain ⟨t, ht, htext, hlen'⟩ := isText_dumpsCompact repr v w hw
    refine ⟨s ++ [0x3A] ++ t, ?_,
      ⟨[], s, [], [], t, [], Ws.nil, hstring, Ws.nil, Ws.nil, htext, Ws.nil, by simp⟩, ?_⟩
    · exact encodeUtf8_append_of (encodeUtf8_append_of hs (by decide)) ht
    · simp only [List.length_append, List.length_cons, List.length_nil, roomMembers]
      omega
  | (key, v) :: e :: entries, _, h => by
    obtain ⟨name, w, members', hname, hw, hmembers', rfl⟩ := spellEntries_cons h
    obtain ⟨s, hs, hstring, hlen⟩ := isString_dumpsStr hname
    obtain ⟨t, ht, htext, hlen'⟩ := isText_dumpsCompact repr v w hw
    obtain ⟨r, hr, hrest, hlen''⟩ := isMembers_dumpsEntries repr (e :: entries) members' hmembers'
    obtain ⟨name', w', members'', -, -, -, rfl⟩ := spellEntries_cons hmembers'
    refine ⟨s ++ [0x3A] ++ t ++ [0x2C] ++ r, ?_,
      ⟨[], s, [], [], t, [], r, Ws.nil, hstring, Ws.nil, Ws.nil, htext, Ws.nil, hrest, by simp⟩, ?_⟩
    · exact encodeUtf8_append_of (encodeUtf8_append_of
        (encodeUtf8_append_of (encodeUtf8_append_of hs (by decide)) ht) (by decide)) hr
    · rw [roomMembers]
      simp only [List.length_append, List.length_cons, List.length_nil]
      omega

end

end Python
