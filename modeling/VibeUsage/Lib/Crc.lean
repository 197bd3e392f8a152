import Mathlib

/-!
# Cyclic redundancy checks, bit by bit

The register of a reflected CRC of width `n`: a bit of the data is added at the low end, and a step
shifts the register down, adding the polynomial when a one falls out. The polynomial's highest
coefficient is its top bit, so a step can be undone (`step_injective`). Up to `n` bits fed one by
one are the same as adding them as one word first (`feed_eq_iterate`), hence two streams that differ
in a window of `n` bits only leave different registers (`eq_of_feed_eq`): the code detects every
burst of up to `n` bits.
-/

namespace Crc

variable {n : ℕ}

/-- One step of the register. -/
def step (poly x : BitVec n) : BitVec n :=
  if x.getLsbD 0 then (x >>> 1) ^^^ poly else x >>> 1

/-- A bit at the low end of a word. -/
def low (b : Bool) : BitVec n := if b then 1#n else 0#n

/-- The register after a bit of the data. -/
def feedBit (poly x : BitVec n) (b : Bool) : BitVec n := step poly (x ^^^ low b)

/-- The register after some bits of the data. -/
def feed (poly x : BitVec n) (bits : List Bool) : BitVec n := bits.foldl (feedBit poly) x

/-- The word with these bits, the first one lowest. -/
def word : List Bool → BitVec n
  | [] => 0#n
  | b :: bits => low b ^^^ (word bits <<< 1)

variable {poly : BitVec n}

/-- Bits are fed one after the other. -/
theorem feed_append (x : BitVec n) (bits bits' : List Bool) :
    feed poly x (bits ++ bits') = feed poly (feed poly x bits) bits' := List.foldl_append

/-! ### A step can be undone -/

/-- The bit that fell out is the top bit of the result. -/
theorem msb_step (hpoly : poly.msb = true) (x : BitVec n) : (step poly x).msb = x.getLsbD 0 := by
  have hn : 0 < n := by
    rcases Nat.eq_zero_or_pos n with rfl | hn
    · rw [BitVec.eq_nil poly] at hpoly
      exact absurd hpoly (by decide)
    · exact hn
  have hshift : (x >>> 1).msb = false := by
    rw [BitVec.msb_eq_getLsbD_last, BitVec.getLsbD_ushiftRight]
    exact BitVec.getLsbD_of_ge x _ (by omega)
  unfold step
  split
  · rename_i h
    rw [BitVec.msb_xor, hshift, hpoly, h]
    rfl
  · rename_i h
    rw [hshift]
    exact (Bool.eq_false_of_not_eq_true h).symm

/-- A step can be undone. -/
theorem step_injective (hpoly : poly.msb = true) : Function.Injective (step poly) := by
  intro x y h
  have hlow : x.getLsbD 0 = y.getLsbD 0 := by
    rw [← msb_step hpoly, ← msb_step hpoly, h]
  have hshift : x >>> 1 = y >>> 1 := by
    unfold step at h
    rw [hlow] at h
    split at h
    · exact (BitVec.xor_left_inj poly).1 h
    · exact h
  refine BitVec.eq_of_getLsbD_eq fun i hi ↦ ?_
  cases i with
  | zero => exact hlow
  | succ i =>
    have hbit := congrArg (fun z : BitVec n ↦ z.getLsbD i) hshift
    simpa [BitVec.getLsbD_ushiftRight, Nat.add_comm] using hbit

/-- **Feeding can be undone**: registers that differ stay different. -/
theorem feed_injective (hpoly : poly.msb = true) (bits : List Bool) :
    Function.Injective fun x ↦ feed poly x bits := by
  induction bits with
  | nil => exact fun x y h ↦ h
  | cons b bits ih =>
    intro x y h
    exact (BitVec.xor_left_inj (low b)).1 (step_injective hpoly (ih h))

/-! ### Bits as a word -/

@[simp] theorem getLsbD_low {b : Bool} {i : ℕ} :
    (low b : BitVec n).getLsbD i = (decide (0 < n) && decide (i = 0) && b) := by
  unfold low
  cases b <;> simp [BitVec.getLsbD_one]

/-- The bits of the word. -/
theorem getLsbD_word {bits : List Bool} {i : ℕ} (hi : i < n) :
    (word bits : BitVec n).getLsbD i = bits.getD i false := by
  induction bits generalizing i with
  | nil => simp [word]
  | cons b bits ih =>
    rw [word, BitVec.getLsbD_xor, getLsbD_low, BitVec.getLsbD_shiftLeft]
    cases i with
    | zero => simp [hi]
    | succ i => simp [hi, ih (Nat.lt_of_succ_lt hi)]

/-- A word is known by its bits. -/
theorem word_injective {bits bits' : List Bool} (hlen : bits.length = bits'.length)
    (hn : bits.length ≤ n) (h : (word bits : BitVec n) = word bits') : bits = bits' := by
  refine List.ext_getElem hlen fun i hi hi' ↦ ?_
  have hbit := congrArg (fun z : BitVec n ↦ z.getLsbD i) h
  simpa [getLsbD_word (Nat.lt_of_lt_of_le hi hn), hi, hi'] using hbit

/-- A bit that is not the lowest only moves down. -/
theorem step_xor_shiftLeft (x w : BitVec n) (hw : w.msb = false) :
    step poly (x ^^^ (w <<< 1)) = step poly x ^^^ w := by
  have hlow : (x ^^^ (w <<< 1)).getLsbD 0 = x.getLsbD 0 := by simp
  have hshift : (x ^^^ (w <<< 1)) >>> 1 = (x >>> 1) ^^^ w := by
    rw [BitVec.ushiftRight_xor_distrib]
    congr 1
    refine BitVec.eq_of_getLsbD_eq fun i hi ↦ ?_
    rw [BitVec.getLsbD_ushiftRight, BitVec.getLsbD_shiftLeft]
    by_cases hi' : 1 + i < n
    · simp [hi']
    · obtain rfl : i = n - 1 := by omega
      rw [BitVec.msb_eq_getLsbD_last] at hw
      simp [hi', hw]
  unfold step
  rw [hlow, hshift]
  split
  · rw [BitVec.xor_assoc, BitVec.xor_comm w, ← BitVec.xor_assoc]
  · rfl

/-- **Bits one by one, or as one word first.** -/
theorem feed_eq_iterate (x : BitVec n) {bits : List Bool} (h : bits.length ≤ n) :
    feed poly x bits = (step poly)^[bits.length] (x ^^^ word bits) := by
  induction bits generalizing x with
  | nil => simp [feed, word]
  | cons b bits ih =>
    have hlen : bits.length < n := h
    have hmsb : (word bits : BitVec n).msb = false := by
      rw [BitVec.msb_eq_getLsbD_last, getLsbD_word (by omega)]
      exact List.getD_eq_default _ _ (by omega)
    rw [List.length_cons, Function.iterate_succ_apply, word, ← BitVec.xor_assoc,
      step_xor_shiftLeft _ _ hmsb]
    exact ih _ (Nat.le_of_lt hlen)

/-- Up to `n` bits are told apart by what they do to the register. -/
theorem eq_of_feed_eq_of_length_le (hpoly : poly.msb = true) {x : BitVec n} {bits bits' : List Bool}
    (hlen : bits.length = bits'.length) (hle : bits.length ≤ n)
    (h : feed poly x bits = feed poly x bits') : bits = bits' := by
  rw [feed_eq_iterate x hle, feed_eq_iterate x (hlen ▸ hle), ← hlen] at h
  have hword := (step_injective hpoly).iterate _ h
  exact word_injective hlen hle ((BitVec.xor_right_inj x).1 hword)

/-- **A burst of up to `n` bits is detected**: streams that leave the same register and differ
nowhere but in a window of `n` bits are equal. -/
theorem eq_of_feed_eq (hpoly : poly.msb = true) {x : BitVec n} {bits bits' : List Bool}
    (hlen : bits.length = bits'.length) {start : ℕ}
    (hwindow : ∀ i, bits[i]? ≠ bits'[i]? → start ≤ i ∧ i < start + n)
    (h : feed poly x bits = feed poly x bits') : bits = bits' := by
  have hsame : ∀ i, ¬ (start ≤ i ∧ i < start + n) → bits[i]? = bits'[i]? :=
    fun i hi ↦ not_not.1 (mt (hwindow i) hi)
  have hbefore : bits.take start = bits'.take start := by
    refine List.ext_getElem? fun i ↦ ?_
    rw [List.getElem?_take, List.getElem?_take]
    split
    · exact hsame i (by omega)
    · rfl
  have hafter : bits.drop (start + n) = bits'.drop (start + n) := by
    refine List.ext_getElem? fun i ↦ ?_
    rw [List.getElem?_drop, List.getElem?_drop]
    exact hsame _ (by omega)
  have hsplit : ∀ l : List Bool, l = l.take start ++
    ((l.drop start).take n ++ l.drop (start + n)) := by
    intro l
    rw [← List.drop_drop, List.take_append_drop, List.take_append_drop]
  have hmiddle : (bits.drop start).take n = (bits'.drop start).take n := by
    rw [hsplit bits, hsplit bits', feed_append, feed_append, feed_append, feed_append, hbefore,
      hafter] at h
    have hfeed := feed_injective hpoly _ h
    have hlen' : ((bits.drop start).take n).length = ((bits'.drop start).take n).length := by
      rw [List.length_take, List.length_take, List.length_drop, List.length_drop, hlen]
    exact eq_of_feed_eq_of_length_le hpoly hlen' (List.length_take_le _ _) hfeed
  rw [hsplit bits, hsplit bits', hbefore, hmiddle, hafter]

/-- **After the complement of the register**, which is what a trailer holds, the register is the
same whatever the data. -/
theorem feed_complement {x : BitVec n} {bits : List Bool} (hlen : bits.length = n)
    (h : word bits = ~~~x) : feed poly x bits = (step poly)^[n] (BitVec.allOnes n) := by
  have hones : x ^^^ ~~~x = BitVec.allOnes n := by
    refine BitVec.eq_of_getLsbD_eq fun i hi ↦ ?_
    rw [BitVec.getLsbD_xor, BitVec.getLsbD_not, BitVec.getLsbD_allOnes]
    cases x.getLsbD i <;> simp [hi]
  rw [feed_eq_iterate x (Nat.le_of_eq hlen), h, hones, hlen]

/-! ### Bytes -/

/-- The bits of a byte, the least significant first. -/
def byteBits (b : UInt8) : List Bool := List.ofFn fun i : Fin 8 ↦ b.toBitVec.getLsbD i

/-- The bits of some bytes, in the order they are fed. -/
def dataBits (data : List UInt8) : List Bool := data.flatMap byteBits

/-- The bit at a position of that order. -/
def bitAt (data : List UInt8) (i : ℕ) : Bool := (data.getD (i / 8) 0).toBitVec.getLsbD (i % 8)

@[simp] theorem length_byteBits (b : UInt8) : (byteBits b).length = 8 := List.length_ofFn

/-- A byte is fed from its lowest bit. -/
theorem getElem?_byteBits {b : UInt8} {i : ℕ} (h : i < 8) :
    (byteBits b)[i]? = some (b.toBitVec.getLsbD i) := by
  unfold byteBits
  rw [List.getElem?_ofFn, dif_pos h]

/-- Bytes are fed one after the other. -/
theorem dataBits_cons (b : UInt8) (data : List UInt8) :
    dataBits (b :: data) = byteBits b ++ dataBits data := rfl

/-- So are stretches of them. -/
theorem dataBits_append (data data' : List UInt8) :
    dataBits (data ++ data') = dataBits data ++ dataBits data' := List.flatMap_append

@[simp] theorem length_dataBits (data : List UInt8) : (dataBits data).length = 8 * data.length := by
  induction data with
  | nil => rfl
  | cons b data ih =>
    rw [dataBits_cons, List.length_append, length_byteBits, ih, List.length_cons]
    omega

/-- **A bit of the data** has its place in what is fed. -/
theorem getElem?_dataBits {data : List UInt8} {i : ℕ} (h : i < 8 * data.length) :
    (dataBits data)[i]? = some (bitAt data i) := by
  induction data generalizing i with
  | nil => exact absurd h (Nat.not_lt_zero i)
  | cons b data ih =>
    rw [dataBits_cons]
    by_cases hi : i < 8
    · rw [List.getElem?_append_left (by simpa using hi)]
      have hdiv : i / 8 = 0 := by omega
      have hmod : i % 8 = i := by omega
      rw [getElem?_byteBits hi]
      unfold bitAt
      rw [hdiv, hmod, List.getD_cons_zero]
    · have hlt : i - 8 < 8 * data.length := by
        rw [List.length_cons] at h
        omega
      have hdiv : i / 8 = (i - 8) / 8 + 1 := by omega
      have hmod : i % 8 = (i - 8) % 8 := by omega
      rw [List.getElem?_append_right (by simpa using hi), length_byteBits, ih hlt]
      unfold bitAt
      rw [hdiv, hmod, List.getD_cons_succ]

/-- Bytes are determined by their bits. -/
theorem eq_of_dataBits_eq {data data' : List UInt8} (h : dataBits data = dataBits data') :
    data = data' := by
  have hlen : data.length = data'.length := by
    have hbits := congrArg List.length h
    rw [length_dataBits, length_dataBits] at hbits
    omega
  refine List.ext_getElem hlen fun i hi hi' ↦ ?_
  refine UInt8.toBitVec_inj.1 (BitVec.eq_of_getLsbD_eq fun j hj ↦ ?_)
  have hdiv : (8 * i + j) / 8 = i := by omega
  have hmod : (8 * i + j) % 8 = j := by omega
  have hbit : some (bitAt data (8 * i + j)) = some (bitAt data' (8 * i + j)) := by
    rw [← getElem?_dataBits (by omega), ← getElem?_dataBits (by omega), h]
  unfold bitAt at hbit
  rw [hdiv, hmod, Option.some.injEq] at hbit
  simpa [hi, hi'] using hbit

/-- The bits of a byte are the byte. -/
theorem word_byteBits (b : UInt8) : (word (byteBits b) : BitVec 32) = b.toBitVec.setWidth 32 := by
  refine BitVec.eq_of_getLsbD_eq fun i hi ↦ ?_
  rw [getLsbD_word hi, BitVec.getLsbD_setWidth]
  by_cases hi' : i < 8
  · rw [List.getD_eq_getElem?_getD, getElem?_byteBits hi']
    simp [hi]
  · rw [List.getD_eq_default _ _ (by simpa using hi'), BitVec.getLsbD_of_ge _ _ (by omega)]
    simp

end Crc
