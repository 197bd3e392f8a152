import VibeUsage.Lib.Slots

/-!
# Sequential decoders

A decoder reads a prefix of its input and returns a value with the rest, or fails. `Decodes d b a`
says that `d` reads exactly the bytes `b`, whatever follows them, as the value `a`. A round trip is
then proved the way the format is written: one `Decodes.bind` for each field, in order.

`Reads d p` is the other direction: whatever `d` reads stands in the relation `p` to its value.
Words have no redundant encodings (`encode_decode`).

Words are little-endian. A writer has a fixed size, and a run of fields fits it exactly when their
total length does (`foldlM_write`).
-/

namespace Codec

/-- A decoder with errors `ε`. -/
abbrev Decoder (ε α : Type) := StateT (List UInt8) (Except ε) α

variable {ε α β : Type}

/-- `d` reads exactly `b`, as `a`. -/
def Decodes (d : Decoder ε α) (b : List UInt8) (a : α) : Prop :=
  ∀ r, d.run (b ++ r) = .ok (a, r)

namespace Decodes

theorem pure (a : α) : Decodes (Pure.pure a : Decoder ε α) [] a := fun _ ↦ rfl

theorem bind {d : Decoder ε α} {f : α → Decoder ε β} {b b' : List UInt8} {a : α} {a' : β}
    (hd : Decodes d b a) (hf : Decodes (f a) b' a') : Decodes (d >>= f) (b ++ b') a' := by
  intro r
  rw [List.append_assoc, StateT.run_bind, hd]
  exact hf r

/-- A field at the end. -/
theorem last {d : Decoder ε α} {b : List UInt8} {f : α → β} {a : α} (hd : Decodes d b a) :
    Decodes (d >>= fun a ↦ Pure.pure (f a)) b (f a) := by
  intro r
  rw [StateT.run_bind, hd]
  rfl

/-- A value that is another form of the one that was returned. -/
theorem pure_of_eq {a a' : α} (h : a = a') : Decodes (Pure.pure a : Decoder ε α) [] a' :=
  h ▸ Decodes.pure a

/-- A last field, with what is checked after it. -/
theorem bind_nil {d : Decoder ε α} {f : α → Decoder ε β} {b : List UInt8} {a : α} {a' : β}
    (hd : Decodes d b a) (hf : Decodes (f a) [] a') : Decodes (d >>= f) b a' := by
  have h := hd.bind hf
  rwa [List.append_nil] at h

/-- What is read when the whole input has been. -/
theorem run_self {d : Decoder ε α} {b : List UInt8} {a : α} (h : Decodes d b a) :
    d.run b = .ok (a, []) := by
  rw [← List.append_nil b]
  exact h []

end Decodes

/-! ### Checks and bytes -/

/-- Fail with `e` unless `p`. -/
def check (p : Prop) [Decidable p] (e : ε) : Decoder ε Unit :=
  fun r ↦ if p then .ok ((), r) else .error e

/-- A check that holds reads nothing. -/
theorem Decodes.check {p : Prop} [Decidable p] (h : p) (e : ε) :
    Decodes (Codec.check p e) [] () := fun _ ↦ if_pos h

/-- A check that holds, between two fields. -/
theorem Decodes.check_bind {p : Prop} [Decidable p] {e : ε} {f : Unit → Decoder ε α}
    {b : List UInt8} {a : α} (h : p) (hf : Decodes (f ()) b a) :
    Decodes (Codec.check p e >>= f) b a :=
  (Decodes.check h e).bind hf

/-- The next `n` bytes, or the error `e`. -/
def readBytes (n : ℕ) (e : ε) : Decoder ε (List UInt8) :=
  fun r ↦ if n > r.length then .error e else .ok (r.take n, r.drop n)

/-- Bytes are read as they are. -/
theorem Decodes.bytes {n : ℕ} (b : List UInt8) (h : b.length = n) (e : ε) :
    Decodes (readBytes n e) b b := by
  intro r
  subst h
  show (if b.length > (b ++ r).length then _ else _) = _
  rw [if_neg (by simp), List.take_left, List.drop_left]

/-! ### Words -/

def u8 (v : UInt8) : List UInt8 := [v]

def u16 (v : UInt16) : List UInt8 := [v.toUInt8, (v >>> 8).toUInt8]

/-- The four bytes of a word, least significant first. -/
def u32 (v : UInt32) : List UInt8 :=
  [v.toUInt8, (v >>> 8).toUInt8, (v >>> 16).toUInt8, (v >>> 24).toUInt8]

def u64 (v : UInt64) : List UInt8 :=
  [v.toUInt8, (v >>> 8).toUInt8, (v >>> 16).toUInt8, (v >>> 24).toUInt8,
    (v >>> 32).toUInt8, (v >>> 40).toUInt8, (v >>> 48).toUInt8, (v >>> 56).toUInt8]

@[simp] theorem length_u8 (v : UInt8) : (u8 v).length = 1 := rfl

@[simp] theorem length_u16 (v : UInt16) : (u16 v).length = 2 := rfl

@[simp] theorem length_u32 (v : UInt32) : (u32 v).length = 4 := rfl

@[simp] theorem length_u64 (v : UInt64) : (u64 v).length = 8 := rfl

def fromU8 (b : List UInt8) : UInt8 := b.getD 0 0

def fromU16 (b : List UInt8) : UInt16 := (b.getD 0 0).toUInt16 ||| (b.getD 1 0).toUInt16 <<< 8

def fromU32 (b : List UInt8) : UInt32 :=
  (b.getD 0 0).toUInt32 ||| (b.getD 1 0).toUInt32 <<< 8 ||| (b.getD 2 0).toUInt32 <<< 16 |||
    (b.getD 3 0).toUInt32 <<< 24

def fromU64 (b : List UInt8) : UInt64 :=
  (b.getD 0 0).toUInt64 ||| (b.getD 1 0).toUInt64 <<< 8 ||| (b.getD 2 0).toUInt64 <<< 16 |||
    (b.getD 3 0).toUInt64 <<< 24 ||| (b.getD 4 0).toUInt64 <<< 32 |||
    (b.getD 5 0).toUInt64 <<< 40 ||| (b.getD 6 0).toUInt64 <<< 48 |||
    (b.getD 7 0).toUInt64 <<< 56

/-- One byte of a word, back in its place. -/
theorem getLsbD_byte {w : ℕ} (v : BitVec w) (k : ℕ) {i : ℕ} (hi : i < w) :
    (((v >>> k).setWidth 8).setWidth w <<< k).getLsbD i =
      (decide (k ≤ i ∧ i < k + 8) && v.getLsbD i) := by
  rw [BitVec.getLsbD_shiftLeft, BitVec.getLsbD_setWidth, BitVec.getLsbD_setWidth,
    BitVec.getLsbD_ushiftRight]
  by_cases hk : k ≤ i
  · have hadd : k + (i - k) = i := by omega
    have hlt : i - k < 8 ↔ i < k + 8 := by omega
    simp [hi, hk, hadd, hlt, show i - k < w by omega, show ¬ i < k by omega]
  · simp [hk, show i < k by omega]

/-- The low byte of a word, bit by bit. -/
theorem getLsbD_low {w : ℕ} (v : BitVec w) {i : ℕ} (hi : i < w) :
    ((v.setWidth 8).setWidth w).getLsbD i = (decide (i < 8) && v.getLsbD i) := by
  rw [BitVec.getLsbD_setWidth, BitVec.getLsbD_setWidth]
  simp [hi]

/-- Two bytes come back. -/
theorem fromU16_u16 (v : UInt16) : fromU16 (u16 v) = v := by
  refine UInt16.toBitVec_inj.1 (BitVec.eq_of_getLsbD_eq fun i hi ↦ ?_)
  generalize hb : v.toBitVec = b
  have hword : (fromU16 (u16 v)).toBitVec =
      (b.setWidth 8).setWidth 16 ||| ((b >>> 8).setWidth 8).setWidth 16 <<< 8 := by
    rw [← hb]
    rfl
  rw [hword]
  simp only [BitVec.getLsbD_or, getLsbD_low b hi, getLsbD_byte b _ hi]
  cases b.getLsbD i
  · simp
  · simp only [Bool.and_true, ← Bool.decide_or, decide_eq_true_eq]
    omega

/-- Four bytes come back. -/
theorem fromU32_u32 (v : UInt32) : fromU32 (u32 v) = v := by
  refine UInt32.toBitVec_inj.1 (BitVec.eq_of_getLsbD_eq fun i hi ↦ ?_)
  generalize hb : v.toBitVec = b
  have hword : (fromU32 (u32 v)).toBitVec = (b.setWidth 8).setWidth 32 |||
      ((b >>> 8).setWidth 8).setWidth 32 <<< 8 ||| ((b >>> 16).setWidth 8).setWidth 32 <<< 16 |||
      ((b >>> 24).setWidth 8).setWidth 32 <<< 24 := by
    rw [← hb]
    rfl
  rw [hword]
  simp only [BitVec.getLsbD_or, getLsbD_low b hi, getLsbD_byte b _ hi]
  cases b.getLsbD i
  · simp
  · simp only [Bool.and_true, ← Bool.decide_or, decide_eq_true_eq]
    omega

/-- Eight bytes come back. -/
theorem fromU64_u64 (v : UInt64) : fromU64 (u64 v) = v := by
  refine UInt64.toBitVec_inj.1 (BitVec.eq_of_getLsbD_eq fun i hi ↦ ?_)
  generalize hb : v.toBitVec = b
  have hword : (fromU64 (u64 v)).toBitVec = (b.setWidth 8).setWidth 64 |||
      ((b >>> 8).setWidth 8).setWidth 64 <<< 8 ||| ((b >>> 16).setWidth 8).setWidth 64 <<< 16 |||
      ((b >>> 24).setWidth 8).setWidth 64 <<< 24 ||| ((b >>> 32).setWidth 8).setWidth 64 <<< 32 |||
      ((b >>> 40).setWidth 8).setWidth 64 <<< 40 ||| ((b >>> 48).setWidth 8).setWidth 64 <<< 48 |||
      ((b >>> 56).setWidth 8).setWidth 64 <<< 56 := by
    rw [← hb]
    rfl
  rw [hword]
  simp only [BitVec.getLsbD_or, getLsbD_low b hi, getLsbD_byte b _ hi]
  cases b.getLsbD i
  · simp
  · simp only [Bool.and_true, ← Bool.decide_or, decide_eq_true_eq]
    omega

def readU8 (e : ε) : Decoder ε UInt8 := do
  let b ← readBytes 1 e
  return fromU8 b

def readU32 (e : ε) : Decoder ε UInt32 := do
  let b ← readBytes 4 e
  return fromU32 b

def readU64 (e : ε) : Decoder ε UInt64 := do
  let b ← readBytes 8 e
  return fromU64 b

/-- A byte is read back. -/
theorem Decodes.u8 (v : UInt8) (e : ε) : Decodes (readU8 e) (Codec.u8 v) v :=
  (Decodes.bytes (Codec.u8 v) rfl e).last

/-- A word of four bytes is read back. -/
theorem Decodes.u32 (v : UInt32) (e : ε) : Decodes (readU32 e) (Codec.u32 v) v := by
  have h : Decodes (readU32 e) (Codec.u32 v) (fromU32 (Codec.u32 v)) :=
    (Decodes.bytes (Codec.u32 v) rfl e).last
  rwa [fromU32_u32] at h

/-- A word of eight bytes is read back. -/
theorem Decodes.u64 (v : UInt64) (e : ε) : Decodes (readU64 e) (Codec.u64 v) v := by
  have h : Decodes (readU64 e) (Codec.u64 v) (fromU64 (Codec.u64 v)) :=
    (Decodes.bytes (Codec.u64 v) rfl e).last
  rwa [fromU64_u64] at h

/-! ### Arrays -/

/-- `n` values, one after the other. -/
def repeatN (d : Decoder ε α) : (n : ℕ) → Decoder ε (Vector α n)
  | 0 => return #v[]
  | n + 1 => do
    let xs ← repeatN d n
    let x ← d
    return xs.push x

/-- **A table is read back**, entry by entry. -/
theorem Decodes.repeatN {d : Decoder ε α} {encode : α → List UInt8} :
    ∀ {n : ℕ} {xs : Vector α n}, (∀ i : Fin n, Decodes d (encode xs[i]) xs[i]) →
      Decodes (Codec.repeatN d n) (xs.toList.flatMap encode) xs
  | 0, xs, _ => by
    obtain rfl : xs = #v[] := Vector.eq_empty
    exact Decodes.pure #v[]
  | n + 1, xs, h => by
    have hpop : Decodes (Codec.repeatN d n) (xs.pop.toList.flatMap encode) xs.pop :=
      Decodes.repeatN fun i ↦ by
        have hi := h i.castSucc
        simpa using hi
    have hback : Decodes d (encode xs.back) xs.back := h (Fin.last n)
    have hxs : xs.pop.push xs.back = xs := Vector.push_pop_back xs
    have hbytes : xs.toList.flatMap encode = xs.pop.toList.flatMap encode ++ encode xs.back := by
      calc xs.toList.flatMap encode
          = (xs.pop.push xs.back).toList.flatMap encode := by rw [hxs]
        _ = xs.pop.toList.flatMap encode ++ encode xs.back := by
          rw [Vector.toList_push, List.flatMap_append, List.flatMap_singleton]
    have hpush : Decodes (d >>= fun x ↦ Pure.pure (xs.pop.push x)) (encode xs.back) xs := by
      have hlast := hback.last (f := fun x ↦ xs.pop.push x)
      rwa [hxs] at hlast
    rw [hbytes]
    exact hpop.bind hpush

/-! ### What was read -/

/-- Whatever `d` reads stands in this relation to its value. -/
def Reads (d : Decoder ε α) (p : List UInt8 → α → Prop) : Prop :=
  ∀ r a r', d.run r = .ok (a, r') → ∃ b, r = b ++ r' ∧ p b a

namespace Reads

theorem pure {p : List UInt8 → α → Prop} {a : α} (h : p [] a) :
    Reads (Pure.pure a : Decoder ε α) p := by
  intro r a' r' hrun
  obtain ⟨rfl, rfl⟩ := Prod.mk.inj (Except.ok.inj hrun)
  exact ⟨[], rfl, h⟩

theorem bind {d : Decoder ε α} {f : α → Decoder ε β} {q : List UInt8 → α → Prop}
    {p : List UInt8 → β → Prop} (hd : Reads d q)
    (hf : ∀ b a, q b a → Reads (f a) fun b' a' ↦ p (b ++ b') a') : Reads (d >>= f) p := by
  intro r a' r' hrun
  rw [StateT.run_bind] at hrun
  cases hfirst : d.run r with
  | error e =>
    rw [hfirst] at hrun
    cases hrun
  | ok result =>
    obtain ⟨a, r₁⟩ := result
    rw [hfirst] at hrun
    obtain ⟨b, rfl, hq⟩ := hd r a r₁ hfirst
    obtain ⟨b', rfl, hp⟩ := hf b a hq r₁ a' r' hrun
    exact ⟨b ++ b', by rw [List.append_assoc], hp⟩

/-- What follows a check may rely on it. -/
theorem check_bind {c : Prop} [Decidable c] {e : ε} {f : Unit → Decoder ε α}
    {p : List UInt8 → α → Prop} (hf : c → Reads (f ()) p) : Reads (Codec.check c e >>= f) p := by
  intro r a r' hrun
  by_cases hc : c
  · refine hf hc r a r' ?_
    rw [StateT.run_bind] at hrun
    rwa [show (Codec.check c e).run r = .ok ((), r) from if_pos hc] at hrun
  · rw [StateT.run_bind, show (Codec.check c e).run r = .error e from if_neg hc] at hrun
    cases hrun

theorem mono {d : Decoder ε α} {p q : List UInt8 → α → Prop} (hd : Reads d p)
    (h : ∀ b a, p b a → q b a) : Reads d q := by
  intro r a r' hrun
  obtain ⟨b, hr, hp⟩ := hd r a r' hrun
  exact ⟨b, hr, h b a hp⟩

/-- What is read is what was there. -/
theorem bytes (n : ℕ) (e : ε) : Reads (readBytes n e) fun b a ↦ b = a ∧ b.length = n := by
  intro r a r' hrun
  have hrun' : (if n > r.length then .error e else .ok (r.take n, r.drop n)) =
      (.ok (a, r') : Except ε (List UInt8 × List UInt8)) := hrun
  split at hrun'
  · cases hrun'
  · rename_i hn
    obtain ⟨rfl, rfl⟩ := Prod.mk.inj (Except.ok.inj hrun')
    exact ⟨_, (List.take_append_drop n r).symm, rfl, by rw [List.length_take]; omega⟩

/-- A field read from a fixed number of bytes. -/
theorem field {n : ℕ} {e : ε} {decode : List UInt8 → α} {encode : α → List UInt8}
    (h : ∀ b : List UInt8, b.length = n → encode (decode b) = b) :
    Reads (readBytes n e >>= fun b ↦ Pure.pure (decode b)) fun b a ↦ b = encode a := by
  refine (bytes n e).bind fun b a hb ↦ pure ?_
  obtain ⟨rfl, hlen⟩ := hb
  rw [List.append_nil, h b hlen]

end Reads

/-- A byte is written as it was read. -/
theorem u8_fromU8 {b : List UInt8} (h : b.length = 1) : u8 (fromU8 b) = b := by
  obtain ⟨x, rfl⟩ := List.length_eq_one_iff.1 h
  rfl

theorem card_uint8 : Nat.card UInt8 = 256 :=
  (Nat.card_congr ⟨UInt8.toFin, UInt8.ofFin, fun _ ↦ rfl, fun _ ↦ rfl⟩).trans (Nat.card_fin _)

/-- A word has as many values as there are strings of its bytes, so decoding is inverse on both
sides. -/
theorem encode_decode {α : Type} {n : ℕ} {encode : α → List UInt8} {decode : List UInt8 → α}
    (hcard : Nat.card α = 256 ^ n) (hlen : ∀ v, (encode v).length = n)
    (hinv : ∀ v, decode (encode v) = v) {b : List UInt8} (h : b.length = n) :
    encode (decode b) = b := by
  have hinj : @Function.Injective α (List.Vector UInt8 n) fun v ↦ ⟨encode v, hlen v⟩ := by
    intro v v' heq
    have hbytes : encode v = encode v' := congrArg Subtype.val heq
    rw [← hinv v, ← hinv v', hbytes]
  have hcard' : Nat.card (List.Vector UInt8 n) = 256 ^ n := by
    rw [Nat.card_eq_fintype_card, card_vector, ← Nat.card_eq_fintype_card, card_uint8]
  have hbij := hinj.bijective_of_nat_card_le (by rw [hcard, hcard'])
  obtain ⟨v, hv⟩ := hbij.2 ⟨b, h⟩
  obtain rfl : encode v = b := congrArg Subtype.val hv
  rw [hinv]

/-- Four bytes are written as they were read. -/
theorem u32_fromU32 {b : List UInt8} (h : b.length = 4) : u32 (fromU32 b) = b :=
  encode_decode ((Nat.card_congr ⟨UInt32.toFin, UInt32.ofFin, fun _ ↦ rfl, fun _ ↦ rfl⟩).trans
    (Nat.card_fin _)) length_u32 fromU32_u32 h

/-- Eight bytes are written as they were read. -/
theorem u64_fromU64 {b : List UInt8} (h : b.length = 8) : u64 (fromU64 b) = b :=
  encode_decode ((Nat.card_congr ⟨UInt64.toFin, UInt64.ofFin, fun _ ↦ rfl, fun _ ↦ rfl⟩).trans
    (Nat.card_fin _)) length_u64 fromU64_u64 h

/-- A byte is read of its own form only. -/
theorem Reads.u8 (e : ε) : Reads (readU8 e) fun b v ↦ b = Codec.u8 v :=
  Reads.field fun _ ↦ u8_fromU8

/-- A word of four bytes is read of its own form only. -/
theorem Reads.u32 (e : ε) : Reads (readU32 e) fun b v ↦ b = Codec.u32 v :=
  Reads.field fun _ ↦ u32_fromU32

/-- A word of eight bytes is read of its own form only. -/
theorem Reads.u64 (e : ε) : Reads (readU64 e) fun b v ↦ b = Codec.u64 v :=
  Reads.field fun _ ↦ u64_fromU64

/-- What an array was read from: a string for each value. -/
theorem Reads.repeatN {d : Decoder ε α} {p : List UInt8 → α → Prop} (hd : Reads d p) :
    ∀ n, Reads (Codec.repeatN d n) fun b xs ↦
      ∃ chunks, List.Forall₂ p chunks xs.toList ∧ b = chunks.flatten
  | 0 => Reads.pure ⟨[], .nil, rfl⟩
  | n + 1 => by
    refine (Reads.repeatN hd n).bind fun b xs hxs ↦ hd.bind fun b' x hx ↦ Reads.pure ?_
    obtain ⟨chunks, hchunks, rfl⟩ := hxs
    refine ⟨chunks ++ [b'], ?_, by simp⟩
    rw [Vector.toList_push]
    exact List.rel_append hchunks (.cons hx .nil)

/-- Entries in their own form, one after the other. -/
theorem flatten_of_forall₂ {encode : α → List UInt8} {chunks : List (List UInt8)} {xs : List α}
    (h : List.Forall₂ (fun b a ↦ b = encode a) chunks xs) :
    chunks.flatten = xs.flatMap encode := by
  induction h with
  | nil => rfl
  | cons hb _ ih => rw [List.flatten_cons, List.flatMap_cons, hb, ih]

/-- **A table is read** of its own form only, if its entries are. -/
theorem Reads.repeatN_eq {d : Decoder ε α} {encode : α → List UInt8}
    (hd : Reads d fun b a ↦ b = encode a) (n : ℕ) :
    Reads (Codec.repeatN d n) fun b xs ↦ b = xs.toList.flatMap encode :=
  (Reads.repeatN hd n).mono fun _ _ ⟨_, hchunks, hb⟩ ↦ hb.trans (flatten_of_forall₂ hchunks)

/-! ### Writers -/

/-- A buffer of `size` bytes, filled from the start. -/
structure Writer where
  size : ℕ
  data : List UInt8

/-- Another field, unless it does not fit. -/
def Writer.write (w : Writer) (field : List UInt8) : Option Writer :=
  if field.length > w.size - w.data.length then none
  else some { w with data := w.data ++ field }

/-- **Fields that fit together are written together.** -/
theorem foldlM_write {fields : List (List UInt8)} : ∀ {w : Writer},
    w.data.length + fields.flatten.length ≤ w.size →
      fields.foldlM Writer.write w = some { w with data := w.data ++ fields.flatten } := by
  induction fields with
  | nil => intro w _; simp
  | cons field fields ih =>
    intro w hsize
    rw [List.flatten_cons, List.length_append] at hsize
    have hfield : w.write field = some { w with data := w.data ++ field } := if_neg (by omega)
    rw [List.foldlM_cons, hfield]
    show fields.foldlM Writer.write _ = _
    rw [ih (by rw [List.length_append]; show w.data.length + _ + _ ≤ w.size; omega)]
    simp

end Codec
