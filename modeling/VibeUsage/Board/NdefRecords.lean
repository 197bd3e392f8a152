import VibeUsage.Board.Ndef
import VibeUsage.Lib.Ndef

/-!
# The records on the tag

`board_ndef_uri` and `board_ndef_wifi` of `board_ndef.c`, and with `board_ndef_type2` what the three
leave in the caller's memory. Whatever they accept, a reader of the tag finds as it was: the
credential of the network and the URL, in records that end where their lengths say. Nothing is
stored beyond the capacity, and what is refused is reported as nothing.

A writer that stays inside its buffer (`InBounds`) is one half of the argument, a writer that holds
what it was given (`Holds`) the other. A builder either refuses its arguments or writes the one
message that `wifiMessage` or the URL names (`boardNdefUri_cases`, `boardNdefWifi_cases`), and only
the message matters for the reader.
-/

namespace VibeUsage

/-- Nothing is stored beyond the capacity, and nothing is written in vain. -/
structure Built.Sound (b : Built) (capacity : ℕ) : Prop where
  stored : b.stored.length ≤ capacity
  failed : b.ok = false → b.written = 0
  succeeded : b.ok = true → b.written = b.stored.length

/-- `attr` -/
def Writer.attr (w : Writer) (id : UInt16) (value : List UInt8) : Writer :=
  ((w.be16 id).be16 (UInt16.ofNat value.length)).append value

/-- Attributes written one after the other. -/
def Writer.attrs (w : Writer) (fields : List (UInt16 × List UInt8)) : Writer :=
  fields.foldl (fun w field ↦ w.attr field.1 field.2) w

/-- `"http://"` -/
def httpFront : List UInt8 := ascii ['h', 't', 't', 'p', ':', '/', '/']

/-- `"https://"` -/
def httpsFront : List UInt8 := ascii ['h', 't', 't', 'p', 's', ':', '/', '/']

/-- `valid_url`, with the length it finds. -/
def validUrl (url : CString) : Option ℕ :=
  let length := url.boundedStrlen 193
  if length = 0 ∨ 192 < length ∨
      (url.startsWith httpFront = false ∧ url.startsWith httpsFront = false) then none
  else
    let start := if url.startsWith httpsFront then 8 else 7
    if length ≤ start ∨ url.byteAt start = '/'.toUInt8 ∨ url.byteAt start = '?'.toUInt8 then none
    else if (url.bytes.take length).any fun c ↦ c ≤ 32 || c = 127 then none
    else some length

/-- `uri_record` -/
def Writer.uriRecord (w : Writer) (url : CString) (length : ℕ) (first : Bool) : Writer :=
  let tls := url.startsWith httpsFront
  let start := if tls then 8 else 7
  let w := w.byte (if first then 0xd1 else 0x51)
  let w := (w.byte 1).byte (UInt8.ofNat (length - start + 1))
  let w := (w.byte 'U'.toUInt8).byte (if tls then 4 else 3)
  w.append ((url.bytes.drop start).take (length - start))

/-- `board_ndef_uri` -/
def boardNdefUri (url : CString) (capacity : ℕ) : Built :=
  match validUrl url with
  | none => .refused
  | some length => ((Writer.init capacity).uriRecord url length true).built

/-- `sizeof(credential)` -/
def credentialBytes : ℕ := 144

/-- `"application/vnd.wfa.wsc"` -/
def wscMime : List UInt8 := ascii ['a', 'p', 'p', 'l', 'i', 'c', 'a', 't', 'i', 'o', 'n', '/', 'v',
  'n', 'd', '.', 'w', 'f', 'a', '.', 'w', 's', 'c']

/-- `board_ndef_wifi` -/
def boardNdefWifi (ssid password url : CString) (capacity : ℕ) : Built :=
  match validUrl url with
  | none => .refused
  | some urlLength =>
    let ssidLength := ssid.boundedStrlen 33
    let keyLength := password.boundedStrlen 64
    if ssidLength = 0 ∨ 32 < ssidLength ∨ 63 < keyLength ∨ (keyLength ≠ 0 ∧ keyLength < 8) then
      .refused
    else
      let c := Writer.init credentialBytes
      let c := c.attr 0x1026 [1]
      let c := c.attr 0x1045 (ssid.bytes.take ssidLength)
      let c := c.attr 0x1003 [0, if keyLength ≠ 0 then 0x20 else 0x01]
      let c := c.attr 0x100f [0, if keyLength ≠ 0 then 0x08 else 0x01]
      let c := c.attr 0x1027 (password.bytes.take keyLength)
      let c := c.attr 0x1020 [255, 255, 255, 255, 255, 255]
      if c.valid = false then .refused
      else
        let w := (Writer.init capacity).byte 0x92
        let w := w.byte (UInt8.ofNat wscMime.length)
        let w := w.byte (UInt8.ofNat (5 + 4 + c.out.length))
        let w := w.append wscMime
        let w := w.attr 0x104a [0x10]
        let w := w.attr 0x100e c.out
        (w.uriRecord url urlLength false).built

/-! ### Writing -/

namespace Writer

/-- What was stored lies within the capacity. -/
def InBounds (w : Writer) : Prop := w.out.length ≤ w.capacity

/-- A new writer is inside its buffer. -/
theorem inBounds_init (capacity : ℕ) : (init capacity).InBounds := Nat.zero_le _

/-- A piece that would not fit is not stored. -/
theorem InBounds.append {w : Writer} (h : w.InBounds) (data : List UInt8) :
    (w.append data).InBounds := by
  unfold InBounds at h ⊢
  unfold Writer.append
  split
  · exact h
  · rename_i hfit
    obtain ⟨-, hroom⟩ := not_or.1 hfit
    rw [List.length_append]
    dsimp only
    omega

/-- A byte that does not fit is not written. -/
theorem InBounds.byte {w : Writer} (h : w.InBounds) (b : UInt8) : (w.byte b).InBounds :=
    h.append [b]

theorem InBounds.be16 {w : Writer} (h : w.InBounds) (n : UInt16) : (w.be16 n).InBounds :=
  (h.byte _).byte _

/-- Nor is an attribute, beyond what fits of it. -/
theorem InBounds.attr {w : Writer} (h : w.InBounds) (id : UInt16) (value : List UInt8) :
    (w.attr id value).InBounds := ((h.be16 id).be16 _).append value

/-- Nor is a record. -/
theorem InBounds.uriRecord {w : Writer} (h : w.InBounds) (url : CString) (length : ℕ)
    (first : Bool) : (w.uriRecord url length first).InBounds :=
  (((((h.byte _).byte 1).byte _).byte _).byte _).append _

/-- The buffer stays the same. -/
@[simp]
theorem capacity_attr (w : Writer) (id : UInt16) (value : List UInt8) :
    (w.attr id value).capacity = w.capacity := by
  rw [attr, capacity_append, capacity_be16, capacity_be16]

/-- It does over a list of attributes. -/
@[simp]
theorem capacity_attrs (w : Writer) (fields : List (UInt16 × List UInt8)) :
    (w.attrs fields).capacity = w.capacity := by
  induction fields generalizing w with
  | nil => rfl
  | cons field fields ih => exact (ih _).trans (capacity_attr w field.1 field.2)

/-- A list of attributes stays inside the buffer. -/
theorem InBounds.attrs {w : Writer} (h : w.InBounds) (fields : List (UInt16 × List UInt8)) :
    (w.attrs fields).InBounds := by
  induction fields generalizing w with
  | nil => exact h
  | cons field fields ih => exact ih (h.attr field.1 field.2)

@[simp]
theorem capacity_uriRecord (w : Writer) (url : CString) (length : ℕ) (first : Bool) :
    (w.uriRecord url length first).capacity = w.capacity := by
  simp only [uriRecord, capacity_append, capacity_byte]

/-- **A writer inside its buffer** has touched nothing else. -/
theorem InBounds.sound {w : Writer} (h : w.InBounds) : w.built.Sound w.capacity where
  stored := h
  failed hfailed := if_neg (by
    show ¬ w.valid = true
    rw [show w.valid = false from hfailed]
    exact Bool.false_ne_true)
  succeeded hok := if_pos hok

/-- All of it is written, and a builder succeeds when all of it fits. -/
theorem Holds.built {w : Writer} {data : List UInt8} (h : w.Holds data) :
    (w.built.ok = true ↔ data.length ≤ w.capacity) ∧ (w.built.ok = true → w.built.data = data) := by
  obtain ⟨hvalid, hout⟩ := h
  constructor
  · show w.valid = true ↔ _
    rw [hvalid, decide_eq_true_iff]
  · intro hok
    have hwritten : w.built.written = w.out.length := if_pos hok
    rw [Built.data, hwritten]
    exact List.take_length.trans (hout hok)

/-- The two bytes of `be16`. -/
theorem be16_bytes (n : UInt16) :
    [(n >>> 8).toUInt8, (n &&& 255).toUInt8] = Wsc.be16 n.toNat := by
  have hlt := n.toNat_lt
  have hbits : (8 : UInt16).toNat % 16 = 8 := rfl
  have hmask : (255 : UInt16).toNat = 2 ^ 8 - 1 := rfl
  have hhigh : (n >>> 8).toUInt8 = UInt8.ofNat (n.toNat / 256) := by
    rw [← UInt8.toNat_inj, UInt16.toNat_toUInt8, UInt16.toNat_shiftRight, hbits,
      Nat.shiftRight_eq_div_pow, UInt8.toNat_ofNat']
  have hlow : (n &&& 255).toUInt8 = UInt8.ofNat n.toNat := by
    rw [← UInt8.toNat_inj, UInt16.toNat_toUInt8, UInt16.toNat_and, hmask,
      Nat.and_two_pow_sub_one_eq_mod, UInt8.toNat_ofNat', Nat.mod_mod]
  rw [hhigh, hlow, Wsc.be16]

/-- An attribute is appended in the form that the reader knows. -/
theorem Holds.attr {w : Writer} {data value : List UInt8} (h : w.Holds data) (id : UInt16)
    (hlen : value.length < 65536) :
    (w.attr id value).Holds (data ++ Wsc.encodeAttribute id.toNat value) := by
  have hall := ((h.be16 id).be16 (UInt16.ofNat value.length)).append value
  rw [be16_bytes, be16_bytes, UInt16.toNat_ofNat', Nat.mod_eq_of_lt hlen, List.append_assoc,
    List.append_assoc] at hall
  exact hall

end Writer

/-! ### URLs -/

/-- What `valid_url` says of a URL that it accepts: all of it is looked at, it starts with the
scheme whose length is `start`, and there is more. -/
structure AcceptedUrl (url : CString) (length start : ℕ) : Prop where
  length_eq : length = url.bytes.length
  le : length ≤ 192
  start_eq : start = if url.startsWith httpsFront then 8 else 7
  lt : start < length
  front : url.bytes.take start = if url.startsWith httpsFront then httpsFront else httpFront

/-- A URL that is accepted has a known front, and bytes behind it. -/
theorem acceptedUrl_of_validUrl {url : CString} {length : ℕ} (h : validUrl url = some length) :
    AcceptedUrl url length (if url.startsWith httpsFront then 8 else 7) := by
  unfold validUrl at h
  dsimp only at h
  generalize hstartEq : (if url.startsWith httpsFront = true then 8 else 7) = start at h ⊢
  split at h
  · cases h
  rename_i hfirst
  obtain ⟨hzero, hfirst⟩ := not_or.1 hfirst
  obtain ⟨hlong, hscheme⟩ := not_or.1 hfirst
  split at h
  · cases h
  rename_i hsecond
  obtain ⟨hstart, -⟩ := not_or.1 hsecond
  split at h
  · cases h
  obtain rfl := Option.some.inj h
  refine ⟨?_, by omega, hstartEq.symm, by omega, ?_⟩
  · unfold CString.boundedStrlen at hlong ⊢
    omega
  · rw [← hstartEq]
    by_cases htls : url.startsWith httpsFront = true
    · rw [if_pos htls, if_pos htls]
      exact List.prefix_iff_eq_take.1 (CString.startsWith_iff.1 htls) |>.symm
    · rw [if_neg htls, if_neg htls]
      have hhttp : url.startsWith httpFront = true := by
        rw [Bool.not_eq_true] at htls
        by_contra hno
        rw [Bool.not_eq_true] at hno
        exact hscheme ⟨hno, htls⟩
      exact List.prefix_iff_eq_take.1 (CString.startsWith_iff.1 hhttp) |>.symm

/-- The payload of the record of a URL: a byte for the scheme, and the rest. -/
def uriPayload (url : CString) (start : ℕ) : List UInt8 :=
  (if url.startsWith httpsFront then 4 else 3) :: url.bytes.drop start

section Uri

variable {url : CString} {length start : ℕ}

/-- The front is written as one byte. -/
theorem AcceptedUrl.length_uriPayload (h : AcceptedUrl url length start) :
    (uriPayload url start).length = length - start + 1 := by
  rw [uriPayload, List.length_cons, List.length_drop, h.length_eq]

/-- The record of a URL is written in the short form. -/
theorem AcceptedUrl.holds (h : AcceptedUrl url length start) {w : Writer} {data : List UInt8}
    (hw : w.Holds data) (first : Bool) : (w.uriRecord url length first).Holds
      (data ++ Ndef.shortRecord (if first then 0xd1 else 0x51) (ascii ['U'])
        (uriPayload url start)) := by
  have hall := (((((hw.byte (if first then 0xd1 else 0x51)).byte 1).byte
    (UInt8.ofNat (length - start + 1))).byte 'U'.toUInt8).byte
    (if url.startsWith httpsFront then 4 else 3)).append
    ((url.bytes.drop start).take (length - start))
  have htake : (url.bytes.drop start).take (length - start) = url.bytes.drop start := by
    refine List.take_of_length_le ?_
    rw [List.length_drop, h.length_eq]
  unfold Writer.uriRecord
  dsimp only
  rw [← h.start_eq]
  rw [htake] at hall ⊢
  unfold Ndef.shortRecord
  rw [h.length_uriPayload]
  simp only [List.append_assoc] at hall
  exact hall

/-- **The URL is read back from its record.** -/
theorem AcceptedUrl.uri (h : AcceptedUrl url length start) :
    Ndef.Record.uri ⟨1, ascii ['U'], [], uriPayload url start⟩ = some url.bytes := by
  have hfront := h.front
  have hbytes := List.take_append_drop start url.bytes
  unfold Ndef.Record.uri uriPayload
  by_cases htls : url.startsWith httpsFront = true
  · rw [if_pos htls] at hfront ⊢
    rw [hfront] at hbytes
    exact congrArg some hbytes
  · rw [if_neg htls] at hfront ⊢
    rw [hfront] at hbytes
    exact congrArg some hbytes

end Uri

/-! ### The credential of a network -/

/-- What a reader makes of attributes. -/
def readable (fields : List (UInt16 × List UInt8)) : List (ℕ × List UInt8) :=
  fields.map fun field ↦ (field.1.toNat, field.2)

/-- A list of attributes is appended. -/
theorem Writer.Holds.attrs {w : Writer} {data : List UInt8} (h : w.Holds data)
    {fields : List (UInt16 × List UInt8)} (hlen : ∀ field ∈ fields, field.2.length < 65536) :
    (w.attrs fields).Holds (data ++ Wsc.encodeAttributes (readable fields)) := by
  induction fields generalizing w data with
  | nil =>
    rw [show Wsc.encodeAttributes (readable []) = [] from rfl, List.append_nil]
    exact h
  | cons field fields ih =>
    have hrest := ih (h.attr field.1 (hlen field List.mem_cons_self))
      fun other hother ↦ hlen other (List.mem_cons_of_mem _ hother)
    rw [List.append_assoc] at hrest
    exact hrest

/-- **Attributes are read back** as they were written. -/
theorem readAttributes_readable {fields : List (UInt16 × List UInt8)}
    (hlen : ∀ field ∈ fields, field.2.length < 65536) :
    Wsc.readAttributes (Wsc.encodeAttributes (readable fields)) = some (readable fields) := by
  refine Wsc.readAttributes_encodeAttributes fun field hfield ↦ ?_
  obtain ⟨source, hsource, rfl⟩ := List.mem_map.1 hfield
  exact ⟨source.1.toNat_lt, hlen source hsource⟩

/-- The attributes of the credential. -/
def credentialFields (ssid password : List UInt8) : List (UInt16 × List UInt8) :=
  [(0x1026, [1]), (0x1045, ssid), (0x1003, [0, if password.length ≠ 0 then 0x20 else 0x01]),
    (0x100f, [0, if password.length ≠ 0 then 0x08 else 0x01]), (0x1027, password),
    (0x1020, [255, 255, 255, 255, 255, 255])]

/-- The attributes of the first record. -/
def wscFields (credential : List UInt8) : List (UInt16 × List UInt8) :=
  [(0x104a, [0x10]), (0x100e, credential)]

/-- The length of a credential, from those of its texts. -/
theorem length_credential (ssid password : List UInt8) :
    (Wsc.encodeAttributes (readable (credentialFields ssid password))).length =
      35 + ssid.length + password.length := by
  simp only [credentialFields, readable, Wsc.encodeAttributes, List.map_cons, List.map_nil,
    List.flatMap_cons, List.flatMap_nil, List.length_append, Wsc.length_encodeAttribute,
    List.length_cons, List.length_nil]
  omega

/-- The calls of the source, as a list of attributes. -/
theorem attrs_credentialFields (w : Writer) (ssid password : List UInt8) :
    (((((w.attr 0x1026 [1]).attr 0x1045 ssid).attr 0x1003
      [0, if password.length ≠ 0 then 0x20 else 0x01]).attr 0x100f
      [0, if password.length ≠ 0 then 0x08 else 0x01]).attr 0x1027 password).attr 0x1020
      [255, 255, 255, 255, 255, 255] = w.attrs (credentialFields ssid password) := by
  simp only [Writer.attrs, credentialFields, List.foldl_cons, List.foldl_nil]

/-- The same of the two attributes around the credential. -/
theorem attrs_wscFields (w : Writer) (credential : List UInt8) :
    (w.attr 0x104a [0x10]).attr 0x100e credential = w.attrs (wscFields credential) := by
  simp only [Writer.attrs, wscFields, List.foldl_cons, List.foldl_nil]

/-- Every attribute is short enough for its length field. -/
theorem credentialFields_length {ssid password : List UInt8} (hssid : ssid.length ≤ 32)
    (hpassword : password.length ≤ 63) :
    ∀ field ∈ credentialFields ssid password, field.2.length < 65536 := by
  simp only [credentialFields, List.mem_cons, List.not_mem_nil, or_false]
  rintro _ (rfl | rfl | rfl | rfl | rfl | rfl) <;> simp only [List.length_cons, List.length_nil] <;>
    omega

/-- So are the two around it. -/
theorem wscFields_length {credential : List UInt8} (h : credential.length < 65536) :
    ∀ field ∈ wscFields credential, field.2.length < 65536 := by
  simp only [wscFields, List.mem_cons, List.not_mem_nil, or_false]
  rintro _ (rfl | rfl)
  · show 1 < 65536
    omega
  · exact h

/-- The credential fits its buffer. -/
theorem credential_written {ssid password : List UInt8} (hssid : ssid.length ≤ 32)
    (hpassword : password.length ≤ 63) :
    ((Writer.init credentialBytes).attrs (credentialFields ssid password)).valid = true ∧
    ((Writer.init credentialBytes).attrs (credentialFields ssid password)).out =
      Wsc.encodeAttributes (readable (credentialFields ssid password)) := by
  have hlength := length_credential ssid password
  obtain ⟨hvalid, hout⟩ := (Writer.holds_init credentialBytes).attrs
    (credentialFields_length hssid hpassword)
  have hcapacity : ((Writer.init credentialBytes).attrs (credentialFields ssid password)).capacity =
      144 := Writer.capacity_attrs _ _
  rw [hcapacity, List.nil_append, decide_eq_true (by omega)] at hvalid
  exact ⟨hvalid, hout hvalid⟩

/-! ### The builders -/

/-- The result of a builder that appends `data` to an empty writer. -/
def Built.Writes (b : Built) (capacity : ℕ) (data : List UInt8) : Prop :=
  ∃ w : Writer, b = w.built ∧ w.capacity = capacity ∧ w.InBounds ∧ w.Holds data

namespace Built

variable {b : Built} {capacity : ℕ} {data : List UInt8}

/-- A refusal touches nothing. -/
theorem refused_sound : refused.Sound capacity :=
  ⟨Nat.zero_le _, fun _ ↦ rfl, fun _ ↦ rfl⟩

/-- What is built touches nothing outside the buffer. -/
theorem Writes.sound (h : b.Writes capacity data) : b.Sound capacity := by
  obtain ⟨w, rfl, rfl, hbounds, -⟩ := h
  exact hbounds.sound

/-- It is accepted exactly when it fits. -/
theorem Writes.ok_iff (h : b.Writes capacity data) : b.ok = true ↔ data.length ≤ capacity := by
  obtain ⟨w, rfl, rfl, -, hholds⟩ := h
  exact hholds.built.1

/-- What is accepted is all of it. -/
theorem Writes.data_eq (h : b.Writes capacity data) (hok : b.ok = true) : b.data = data := by
  obtain ⟨w, rfl, rfl, -, hholds⟩ := h
  exact hholds.built.2 hok

end Built

/-- **A link** is refused for its URL, or its one record is written. -/
theorem boardNdefUri_cases (url : CString) (capacity : ℕ) :
    boardNdefUri url capacity = .refused ∨ ∃ length start, AcceptedUrl url length start ∧
      (boardNdefUri url capacity).Writes capacity
        (Ndef.shortRecord 0xd1 (ascii ['U']) (uriPayload url start)) := by
  unfold boardNdefUri
  cases hurl : validUrl url with
  | none => exact .inl rfl
  | some length =>
    have haccepted := acceptedUrl_of_validUrl hurl
    refine .inr ⟨length, _, haccepted, _, rfl, Writer.capacity_uriRecord _ _ _ _,
      (Writer.inBounds_init capacity).uriRecord url length true, ?_⟩
    exact haccepted.holds (Writer.holds_init capacity) true

/-- The message for a network and a URL. -/
def wifiMessage (ssid password : List UInt8) (url : CString) (start : ℕ) : List UInt8 :=
  Ndef.shortRecord 0x92 wscMime (Wsc.encodeAttributes (readable (wscFields
    (Wsc.encodeAttributes (readable (credentialFields ssid password)))))) ++
  Ndef.shortRecord 0x51 (ascii ['U']) (uriPayload url start)

/-- The length of what is around the credential. -/
theorem length_wscPayload (credential : List UInt8) :
    (Wsc.encodeAttributes (readable (wscFields credential))).length =
      5 + 4 + credential.length := by
  simp only [wscFields, readable, Wsc.encodeAttributes, List.map_cons, List.map_nil,
    List.flatMap_cons, List.flatMap_nil, List.length_append, Wsc.length_encodeAttribute,
    List.length_cons, List.length_nil]
  omega

/-- **A network** is refused for its texts or its URL, or its two records are written. -/
theorem boardNdefWifi_cases (ssid password url : CString) (capacity : ℕ) :
    boardNdefWifi ssid password url capacity = .refused ∨
    ∃ length start, AcceptedUrl url length start ∧ ssid.bytes.length ≤ 32 ∧
      password.bytes.length ≤ 63 ∧
      (boardNdefWifi ssid password url capacity).Writes capacity
        (wifiMessage ssid.bytes password.bytes url start) := by
  unfold boardNdefWifi
  cases hurl : validUrl url with
  | none => exact .inl rfl
  | some length =>
    have haccepted := acceptedUrl_of_validUrl hurl
    dsimp only
    split
    · exact .inl rfl
    rename_i hlimits
    obtain ⟨-, hlimits⟩ := not_or.1 hlimits
    obtain ⟨hssid, hlimits⟩ := not_or.1 hlimits
    obtain ⟨hpassword, -⟩ := not_or.1 hlimits
    unfold CString.boundedStrlen at hssid hpassword ⊢
    have hssid32 : ssid.bytes.length ≤ 32 := by omega
    have hpassword63 : password.bytes.length ≤ 63 := by omega
    rw [Nat.min_eq_left (by omega), Nat.min_eq_left (by omega), List.take_length, List.take_length]
    have hlength := length_credential ssid.bytes password.bytes
    obtain ⟨hvalid, hout⟩ := credential_written hssid32 hpassword63
    rw [attrs_credentialFields, hvalid, if_neg (by simp), hout]
    unfold wifiMessage
    generalize Wsc.encodeAttributes (readable (credentialFields ssid.bytes password.bytes)) =
      credential at hlength ⊢
    rw [attrs_wscFields]
    -- What is put out, byte by byte, and that each fits where it is put.
    have hrecord := (((((Writer.holds_init capacity).byte 0x92).byte
      (UInt8.ofNat wscMime.length)).byte (UInt8.ofNat (5 + 4 + credential.length))).append
      wscMime).attrs (wscFields_length (show credential.length < 65536 by omega))
    have hbounds := (((((Writer.inBounds_init capacity).byte 0x92).byte
      (UInt8.ofNat wscMime.length)).byte (UInt8.ofNat (5 + 4 + credential.length))).append
      wscMime).attrs (wscFields credential)
    refine .inr ⟨length, _, haccepted, hssid32, hpassword63, _, rfl, ?_,
      hbounds.uriRecord url length false, ?_⟩
    · rw [Writer.capacity_uriRecord, Writer.capacity_attrs, Writer.capacity_append,
        Writer.capacity_byte, Writer.capacity_byte, Writer.capacity_byte]
      rfl
    · have hall := haccepted.holds hrecord false
      rw [← length_wscPayload credential] at hall ⊢
      exact hall

/-- A message that is neither empty nor too long is written between its length and the terminator.
-/
theorem boardNdefType2To_writes {message : List UInt8} (hne : message ≠ [])
    (hlen : message.length ≤ 65535) (capacity : ℕ) :
    (boardNdefType2To message capacity).Writes capacity
      (3 :: tlvLength message.length ++ message ++ [0xfe]) := by
  have hthree := (Writer.holds_init capacity).byte 3
  have hbounds := (Writer.inBounds_init capacity).byte 3
  unfold boardNdefType2To
  rw [if_neg (by rintro (hempty | hlong)
                 · exact hne hempty
                 · omega)]
  by_cases hsmall : message.length ≤ 254
  · dsimp only
    rw [tlvLength, if_pos hsmall, if_pos hsmall]
    refine ⟨_, rfl, ?_, ((hbounds.byte _).append message).byte 0xfe,
      ((hthree.byte (UInt8.ofNat message.length)).append message).byte 0xfe⟩
    simp only [Writer.capacity_byte, Writer.capacity_append]
    rfl
  · dsimp only
    rw [tlvLength, if_neg hsmall, if_neg hsmall]
    refine ⟨_, rfl, ?_, (((hbounds.byte 255).be16 _).append message).byte 0xfe, ?_⟩
    · simp only [Writer.capacity_byte, Writer.capacity_append, Writer.capacity_be16]
      rfl
    · exact (((hthree.byte 255).be16 (UInt16.ofNat message.length)).append message).byte 0xfe

/-! ### Reading -/

section Reading

variable {url : CString} {length start : ℕ}

/-- A URL fits a short record. -/
theorem AcceptedUrl.short (h : AcceptedUrl url length start) :
    (uriPayload url start).length < 256 := by
  have hlt := h.lt
  have hle := h.le
  rw [h.length_uriPayload]
  omega

theorem uriType_length : (ascii ['U']).length < 256 := by decide

/-- The message of a link is read back. -/
theorem readMessage_uri (h : AcceptedUrl url length start) :
    Ndef.readMessage (Ndef.shortRecord 0xd1 (ascii ['U']) (uriPayload url start)) =
      some [⟨1, ascii ['U'], [], uriPayload url start⟩] := by
  have hread := Ndef.readRecord_shortRecord 0xd1 (by decide) uriType_length h.short []
  rw [List.append_nil] at hread
  exact Ndef.readRecords_last _ (by decide) (by decide) hread

/-- The message of a network is read back, with both of its records. -/
theorem readMessage_wifiMessage (h : AcceptedUrl url length start) {ssid password : List UInt8}
    (hssid : ssid.length ≤ 32) (hpassword : password.length ≤ 63) :
    Ndef.readMessage (wifiMessage ssid password url start) =
      some [⟨2, wscMime, [], Wsc.encodeAttributes (readable (wscFields
          (Wsc.encodeAttributes (readable (credentialFields ssid password)))))⟩,
        ⟨1, ascii ['U'], [], uriPayload url start⟩] := by
  have hcredential := length_credential ssid password
  unfold wifiMessage
  generalize Wsc.encodeAttributes (readable (credentialFields ssid password)) =
    credential at hcredential ⊢
  have hpayload := length_wscPayload credential
  generalize Wsc.encodeAttributes (readable (wscFields credential)) = payload at hpayload ⊢
  have hmime : wscMime.length < 256 := by decide
  have hfirst := Ndef.readRecord_shortRecord 0x92 (by decide) hmime
    (show payload.length < 256 by omega) (Ndef.shortRecord 0x51 (ascii ['U'])
      (uriPayload url start))
  have hsecond := Ndef.readRecord_shortRecord 0x51 (by decide) uriType_length h.short []
  rw [List.append_nil] at hsecond
  exact (Ndef.readRecords_cons _ (by decide) (by decide) hfirst).trans (congrArg _
    (Ndef.readRecords_last _ (by decide) (by decide) hsecond))

end Reading

/-- Up to 254 bytes the length of a message takes one byte, beyond that three; its type and the
terminator take one each. -/
theorem length_tlv (message : List UInt8) :
    (3 :: tlvLength message.length ++ message ++ [0xfe]).length =
      message.length + if message.length ≤ 254 then 3 else 5 := by
  unfold tlvLength
  split
  · simp only [List.length_append, List.length_cons, List.length_nil]
    omega
  · simp only [List.length_append, List.length_cons, List.length_nil]
    omega

/-- **What is on the tag is what was to be on it**: a URL, a network with its URL, and the message
within the tag are read back from whatever the builders accept. -/
theorem boardNdef_reads_back :
    (∀ url capacity, (boardNdefUri url capacity).Sound capacity ∧
      ((boardNdefUri url capacity).ok = true → ∃ record,
        Ndef.readMessage (boardNdefUri url capacity).data = some [record] ∧
        record.uri = some url.bytes)) ∧
    (∀ ssid password url capacity, (boardNdefWifi ssid password url capacity).Sound capacity ∧
      ((boardNdefWifi ssid password url capacity).ok = true → ∃ wsc record credential,
        Ndef.readMessage (boardNdefWifi ssid password url capacity).data = some [wsc, record] ∧
        wsc.format = 2 ∧ wsc.type = wscMime ∧ record.uri = some url.bytes ∧
        Wsc.readAttributes wsc.payload = some [(0x104a, [0x10]), (0x100e, credential)] ∧
        Wsc.readAttributes credential = some [(0x1026, [1]), (0x1045, ssid.bytes),
          (0x1003, [0, if password.bytes.length ≠ 0 then 0x20 else 0x01]),
          (0x100f, [0, if password.bytes.length ≠ 0 then 0x08 else 0x01]),
          (0x1027, password.bytes), (0x1020, [255, 255, 255, 255, 255, 255])])) ∧
    ∀ message capacity, (boardNdefType2To message capacity).Sound capacity ∧
      ((boardNdefType2To message capacity).ok = true →
        Tlv.readMessage (boardNdefType2To message capacity).data = some message) ∧
      (1 ≤ message.length → message.length ≤ 65535 →
        message.length + (if message.length ≤ 254 then 3 else 5) ≤ capacity →
        (boardNdefType2To message capacity).ok = true) := by
  -- The URL, the network with its URL, and the message in the tag's TLV.
  refine ⟨fun url capacity ↦ ?_, fun ssid password url capacity ↦ ?_, fun message capacity ↦ ?_⟩
  · rcases boardNdefUri_cases url capacity with hrefused | ⟨length, start, haccepted, hwrites⟩
    · rw [hrefused]
      exact ⟨Built.refused_sound, fun hok ↦ by cases hok⟩
    · refine ⟨hwrites.sound, fun hok ↦ ⟨_, ?_, haccepted.uri⟩⟩
      rw [hwrites.data_eq hok]
      exact readMessage_uri haccepted
  · rcases boardNdefWifi_cases ssid password url capacity with hrefused |
      ⟨length, start, haccepted, hssid, hpassword, hwrites⟩
    · rw [hrefused]
      exact ⟨Built.refused_sound, fun hok ↦ by cases hok⟩
    · -- The credential is short enough for the two bytes of its length.
      have hfits : (Wsc.encodeAttributes
          (readable (credentialFields ssid.bytes password.bytes))).length < 65536 := by
        rw [length_credential]
        omega
      refine ⟨hwrites.sound, fun hok ↦ ⟨⟨2, wscMime, [], _⟩, _, _, ?_, rfl, rfl,
        haccepted.uri, readAttributes_readable (wscFields_length hfits),
        readAttributes_readable (credentialFields_length hssid hpassword)⟩⟩
      rw [hwrites.data_eq hok]
      exact readMessage_wifiMessage haccepted hssid hpassword
  · by_cases hrefused : message = [] ∨ 65535 < message.length
    · have hbuilt : boardNdefType2To message capacity = .refused := if_pos hrefused
      rw [hbuilt]
      refine ⟨Built.refused_sound, fun hok ↦ (by cases hok), fun hpos hlen ↦ ?_⟩
      rcases hrefused with rfl | hlong
      · exact absurd hpos (by decide)
      · omega
    · obtain ⟨hne, hlen⟩ := not_or.1 hrefused
      have hwrites := boardNdefType2To_writes hne (Nat.le_of_not_lt hlen) capacity
      refine ⟨hwrites.sound, fun hok ↦ ?_, fun _ _ hroom ↦ hwrites.ok_iff.2 ?_⟩
      · have hread := readMessage_of_boardNdefType2 (if_pos hok) []
        rwa [List.append_nil] at hread
      · rw [length_tlv]
        exact hroom

/-- A page. -/
def pageUrl : CString := .ofBytes (ascii ['h', 't', 't', 'p', ':', '/', '/', 'v'])

/-- A page, a network with a password and the page, and the first of them on a tag. -/
theorem boardNdef_reads_back_page :
    (∃ record, Ndef.readMessage (boardNdefUri pageUrl 400).data = some [record] ∧
      record.uri = some pageUrl.bytes) ∧
    (∃ wsc record credential, Ndef.readMessage (boardNdefWifi (.ofBytes (ascii ['V']))
        (.ofBytes (ascii ['1', '2', '3', '4', '5', '6', '7', '8'])) pageUrl 400).data =
          some [wsc, record] ∧ record.uri = some pageUrl.bytes ∧
      Wsc.readAttributes wsc.payload = some [(0x104a, [0x10]), (0x100e, credential)] ∧
      Wsc.readAttributes credential = some [(0x1026, [1]), (0x1045, ascii ['V']),
        (0x1003, [0, 0x20]), (0x100f, [0, 0x08]),
        (0x1027, ascii ['1', '2', '3', '4', '5', '6', '7', '8']),
        (0x1020, [255, 255, 255, 255, 255, 255])]) ∧
    Tlv.readMessage (boardNdefType2To (boardNdefUri pageUrl 400).data 400).data =
      some (boardNdefUri pageUrl 400).data := by
  obtain ⟨hpage, hnetwork, htag⟩ := boardNdef_reads_back
  obtain ⟨record, hread, huri⟩ := (hpage pageUrl 400).2 (by decide)
  obtain ⟨wsc, page, credential, hboth, -, -, hpageUri, hwsc, hcredential⟩ :=
    (hnetwork (.ofBytes (ascii ['V']))
      (.ofBytes (ascii ['1', '2', '3', '4', '5', '6', '7', '8'])) pageUrl 400).2 (by decide)
  exact ⟨⟨record, hread, huri⟩, ⟨wsc, page, credential, hboth, hpageUri, hwsc, hcredential⟩,
    (htag _ 400).2.1 (by decide)⟩

end VibeUsage
