import VibeUsage.Lib.Buffer
import VibeUsage.Ui.I18n

/-!
# Clipping a title

`note_clip_text` of `note_text_clip.h`: a title that is too long for its array or too wide for its
row is cut behind a character and ends in an ellipsis. The glyphs are a parameter, of which only the
advances matter: a text is as wide as its characters together, and no character takes width away.

The cut does not change how what is left is read (`vibeUtf8Walk_take`): neither a terminator nor a
dot continues a character.

`clipLoop_spec` is the loop, `noteClipText_spec` the function: for every text, array, width and
advances. It is stated with `Shortened`, which is about characters; the loop goes by bytes.
-/

namespace VibeUsage

/-- `"..."` -/
def dots : List UInt8 := [0x2E, 0x2E, 0x2E]

section

variable (advance : ℕ → ℕ)

/-- `ZectrixCanvas::TextWidth`, when `advance` is the width of a code point. -/
def textWidth (text : List UInt8) : ℕ := ((vibeUtf8Walk text).map advance).sum

/-- The loop of `note_clip_text`, over the bytes from the cursor on. -/
def clipLoop (limit : ℤ) (cursor out : List UInt8) (used : ℕ) : Option (List UInt8) :=
  match cursor with
  | [] => some out
  | c :: rest =>
    if _h : c = 0 then some out
    else
      let bytes := (vibeUtf8Next (c :: rest)).2
      if used + bytes + 4 > out.length then some out
      else do
        -- `memcpy`, and the terminator behind it
        let out ← Buffer.store out used ((c :: rest).take bytes ++ [0])
        let shown ← Buffer.string out
        if (textWidth advance shown : ℤ) > limit then Buffer.store out used [0]
        else clipLoop limit ((c :: rest).drop bytes) out (used + bytes)
termination_by cursor.length
decreasing_by
  have hadvance := vibeUtf8Next_advance _h rest
  rw [List.length_drop, List.length_cons]
  omega

/-- `note_clip_text`: the caller's array afterwards, none when something is stored outside of it. -/
def noteClipText (text : Option CString) (out : List UInt8) (width : ℤ) : Option (List UInt8) :=
  if out.length = 0 then some out
  else do
    let out ← Buffer.store out 0 [0]
    match text with
    | none => some out
    | some text =>
      if out.length < 4 then some out
      else if text.bytes.length < out.length ∧ (textWidth advance text.bytes : ℤ) ≤ width then
        Buffer.store out 0 (text.bytes ++ [0])
      else
        let ellipsis : ℤ := textWidth advance dots
        let out ← clipLoop advance (width - ellipsis) text.bytes out 0
        if ellipsis ≤ width then Buffer.append out dots else some out

end

/-! ### A cut text is read like the whole -/

/-- No byte that continues a character. -/
def EndsCharacter (more : List UInt8) : Prop := more.getD 0 0 &&& 0xC0 ≠ 0x80

/-- The end of a text ends a character. -/
theorem endsCharacter_nil : EndsCharacter [] := by
  unfold EndsCharacter
  decide

/-- So does an ellipsis. -/
theorem endsCharacter_dots : EndsCharacter dots := by
  unfold EndsCharacter
  decide

section

variable {p more : List UInt8} {j : ℕ}

/-- A byte of the front. -/
theorem getD_take_append_of_lt {i : ℕ} (hj : j ≤ p.length) (hi : i < j) :
    (p.take j ++ more).getD i 0 = p.getD i 0 := by
  have hlt : i < (p.take j).length := by
    rw [List.length_take]
    omega
  rw [List.getD_append _ _ _ _ hlt]
  simp [List.getD_eq_getElem?_getD, hi]

/-- The first byte behind it. -/
theorem getD_take_append_self (hj : j ≤ p.length) :
    (p.take j ++ more).getD j 0 = more.getD 0 0 := by
  have hlength : (p.take j).length = j := List.length_take_of_le hj
  rw [List.getD_append_right _ _ _ _ hlength.le, hlength, Nat.sub_self]

/-- The continuation bytes that a cut text has, the whole has too. -/
theorem utf8Continue_of_take (hj : j ≤ p.length) (hmore : EndsCharacter more) :
    ∀ (left i cp : ℕ) {r : ℕ}, i ≤ j → utf8Continue (p.take j ++ more) left i cp = some r →
      utf8Continue p left i cp = some r
  | 0, _, _, _, _, h => h
  | left + 1, i, cp, r, hi, h => by
    rw [utf8Continue] at h ⊢
    rcases Nat.lt_or_eq_of_le hi with hlt | rfl
    · rw [getD_take_append_of_lt hj hlt] at h
      split at h
      · cases h
      rename_i hc
      rw [if_neg hc]
      exact utf8Continue_of_take hj hmore left (i + 1) _ hlt h
    · have hstop : more.getD 0 0 &&& 0xC0 ≠ 0x80 := hmore
      rw [getD_take_append_self hj, if_pos (Or.inr hstop)] at h
      cases h

/-- The continuation bytes of the whole, when the cut comes behind them. -/
theorem utf8Continue_take (hj : j ≤ p.length) :
    ∀ (left i cp : ℕ), i + left ≤ j →
      utf8Continue (p.take j ++ more) left i cp = utf8Continue p left i cp
  | 0, _, _, _ => rfl
  | left + 1, i, cp, h => by
    rw [utf8Continue, utf8Continue, getD_take_append_of_lt hj (by omega),
      utf8Continue_take hj left (i + 1) _ (by omega)]

/-- **A character is read the same** when the text is cut behind it. -/
theorem vibeUtf8Next_take (hj : j ≤ p.length) (hmore : EndsCharacter more)
    (hcut : (vibeUtf8Next p).2 ≤ j) (hpos : 0 < j) :
    vibeUtf8Next (p.take j ++ more) = vibeUtf8Next p := by
  have hfirst : (p.take j ++ more).getD 0 0 = p.getD 0 0 := getD_take_append_of_lt hj hpos
  unfold vibeUtf8Next at hcut ⊢
  rw [hfirst]
  dsimp only at hcut ⊢
  split
  · rfl
  split
  · rfl
  rename_i hzero hascii
  rw [if_neg hzero, if_neg hascii] at hcut
  by_cases hlen : utf8Length (p.getD 0 0) = 0
  · rw [if_pos hlen, if_pos hlen]
  rw [if_neg hlen] at hcut
  rw [if_neg hlen, if_neg hlen]
  cases hread : utf8Continue (p.take j ++ more) (utf8Length (p.getD 0 0) - 1) 1
      ((p.getD 0 0).toNat &&& (1 <<< (7 - utf8Length (p.getD 0 0)) - 1)) with
  | some cp => rw [utf8Continue_of_take hj hmore _ 1 _ hpos hread]
  | none =>
    cases hwhole : utf8Continue p (utf8Length (p.getD 0 0) - 1) 1
        ((p.getD 0 0).toNat &&& (1 <<< (7 - utf8Length (p.getD 0 0)) - 1)) with
    | none => rfl
    | some cp =>
      -- the cut goes through a character that is none, for its code point
      rw [hwhole] at hcut
      dsimp only at hcut ⊢
      split
      · rfl
      · rename_i hgood
        rw [if_neg hgood] at hcut
        dsimp only at hcut
        rw [utf8Continue_take hj _ 1 _ (by omega), hwhole] at hread
        cases hread

end

/-! ### The boundaries of a text -/

section

variable {text more : List UInt8}

/-- The boundaries behind the first character are those of what follows it. -/
theorem cursorAfter_succ (text : List UInt8) (n : ℕ) : cursorAfter text (n + 1) =
    (vibeUtf8Next text).2 + cursorAfter (text.drop (vibeUtf8Next text).2) n := by
  induction n with
  | zero =>
    show 0 + (vibeUtf8Next (text.drop 0)).2 = (vibeUtf8Next text).2 + 0
    rw [List.drop_zero, Nat.zero_add, Nat.add_zero]
  | succ n ih =>
    rw [cursorAfter, ih, cursorAfter, List.drop_drop, Nat.add_assoc]

/-- More characters end later. -/
theorem cursorAfter_mono (text : List UInt8) : Monotone (cursorAfter text) :=
  monotone_nat_of_le_succ fun n ↦ by
    rw [cursorAfter]
    exact Nat.le_add_right _ _

/-- A character ends within the text. -/
theorem cursorAfter_le_length (hnul : 0 ∉ text) (n : ℕ) : cursorAfter text n ≤ text.length :=
  cursorAfter_le ⟨text, hnul⟩ n

/-- An empty text has none. -/
theorem cursorAfter_nil (n : ℕ) : cursorAfter [] n = 0 :=
  Nat.le_zero.1 (cursorAfter_le_length List.not_mem_nil n)

theorem vibeUtf8Walk_nil : vibeUtf8Walk [] = [] := by
  rw [vibeUtf8Walk]

/-- The first character, and the others. -/
theorem vibeUtf8Walk_cons {c : UInt8} (h : c ≠ 0) (rest : List UInt8) :
    vibeUtf8Walk (c :: rest) = (vibeUtf8Next (c :: rest)).1 ::
      vibeUtf8Walk ((c :: rest).drop (vibeUtf8Next (c :: rest)).2) := by
  rw [vibeUtf8Walk, dif_neg h]

/-- **A text that is cut at a boundary has the characters before the cut.** -/
theorem vibeUtf8Walk_take (hnul : 0 ∉ text) (hmore : EndsCharacter more) (n : ℕ) :
    vibeUtf8Walk (text.take (cursorAfter text n) ++ more) =
      (vibeUtf8Walk text).take n ++ vibeUtf8Walk more := by
  induction n generalizing text with
  | zero => rw [cursorAfter, List.take_zero, List.take_zero, List.nil_append, List.nil_append]
  | succ n ih =>
    cases text with
    | nil => rw [cursorAfter_nil, vibeUtf8Walk_nil, List.take_nil, List.take_nil, List.nil_append,
        List.nil_append]
    | cons c rest =>
      have hc : c ≠ 0 := fun hzero ↦ hnul (hzero ▸ List.mem_cons_self)
      have hle := cursorAfter_le_length hnul (n + 1)
      obtain ⟨hpos, -, -⟩ := vibeUtf8Next_advance hc rest
      rw [cursorAfter_succ] at hle ⊢
      generalize hstep : (vibeUtf8Next (c :: rest)).2 = k at hpos hle ⊢
      generalize hrest : cursorAfter ((c :: rest).drop k) n = i at hle ⊢
      have hnext : vibeUtf8Next ((c :: rest).take (k + i) ++ more) = vibeUtf8Next (c :: rest) :=
        vibeUtf8Next_take hle hmore (by omega) (by omega)
      -- the cut text starts with the same byte
      obtain ⟨k', rfl⟩ := Nat.exists_eq_succ_of_ne_zero (Nat.one_le_iff_ne_zero.1 hpos)
      have hcons : (c :: rest).take (k' + 1 + i) ++ more = c :: (rest.take (k' + i) ++ more) := by
        rw [show k' + 1 + i = k' + i + 1 by omega, List.take_succ_cons, List.cons_append]
      have hdrop : ((c :: rest).take (k' + 1 + i) ++ more).drop (k' + 1) =
          ((c :: rest).drop (k' + 1)).take i ++ more := by
        rw [List.drop_append_of_le_length (by rw [List.length_take]; omega), List.drop_take,
          Nat.add_sub_cancel_left]
      have hnul' : 0 ∉ (c :: rest).drop (k' + 1) := fun h ↦ hnul (List.mem_of_mem_drop h)
      rw [hcons] at hnext hdrop ⊢
      rw [vibeUtf8Walk_cons hc, hnext, vibeUtf8Walk_cons hc, hstep, hdrop, List.take_succ_cons,
        List.cons_append, ← ih hnul', hrest]

end

/-! ### The width -/

section

variable (advance : ℕ → ℕ)

/-- The width of the first characters. -/
def frontWidth (text : List UInt8) (n : ℕ) : ℕ := (((vibeUtf8Walk text).take n).map advance).sum

/-- More characters are wider. -/
theorem frontWidth_mono (text : List UInt8) : Monotone (frontWidth advance text) := by
  intro m n h
  unfold frontWidth
  exact ((List.take_sublist_take_left h).map advance).sum_le_sum fun _ _ ↦ Nat.zero_le _

variable {advance} {text more : List UInt8}

/-- **A front is as wide** as its characters, whatever follows. -/
theorem textWidth_take_append (hnul : 0 ∉ text) (hmore : EndsCharacter more) (n : ℕ) :
    textWidth advance (text.take (cursorAfter text n) ++ more) =
      frontWidth advance text n + textWidth advance more := by
  unfold textWidth frontWidth
  rw [vibeUtf8Walk_take hnul hmore, List.map_append, List.sum_append]

/-- So it is by itself. -/
theorem textWidth_take (hnul : 0 ∉ text) (n : ℕ) :
    textWidth advance (text.take (cursorAfter text n)) = frontWidth advance text n := by
  have h : textWidth advance (text.take (cursorAfter text n) ++ []) =
      frontWidth advance text n + textWidth advance [] :=
    textWidth_take_append hnul endsCharacter_nil n
  rw [List.append_nil] at h
  rw [h, textWidth, vibeUtf8Walk_nil]
  rfl

end

/-! ### The loop -/

section

variable {advance : ℕ → ℕ} {limit : ℤ} {size : ℕ} {text : List UInt8}

/-- The loop may stop with these characters: an ellipsis fits behind them, and no later boundary is
within both limits. -/
structure Clipped (advance : ℕ → ℕ) (limit : ℤ) (size : ℕ) (text : List UInt8) (n : ℕ) :
    Prop where
  /-- There is room for the ellipsis and the terminator. -/
  room : cursorAfter text n + 4 ≤ size
  /-- What was kept was measured. -/
  narrow : n = 0 ∨ (frontWidth advance text n : ℤ) ≤ limit
  /-- Nothing more would have fit. -/
  longest : ∀ m, cursorAfter text m + 4 ≤ size → (frontWidth advance text m : ℤ) ≤ limit →
    cursorAfter text m ≤ cursorAfter text n

/-- The characters are the longest, when the next one does not fit. -/
theorem longest_of_next {n : ℕ} (hnext : ¬(cursorAfter text (n + 1) + 4 ≤ size ∧
    (frontWidth advance text (n + 1) : ℤ) ≤ limit)) (m : ℕ) (hroom : cursorAfter text m + 4 ≤ size)
    (hnarrow : (frontWidth advance text m : ℤ) ≤ limit) :
    cursorAfter text m ≤ cursorAfter text n := by
  rcases Nat.lt_or_ge n m with hlt | hge
  · -- a later boundary is no nearer than the next one, and its text no narrower
    have hcursor : cursorAfter text (n + 1) ≤ cursorAfter text m := cursorAfter_mono text hlt
    have hwidth : frontWidth advance text (n + 1) ≤ frontWidth advance text m :=
      frontWidth_mono advance text hlt
    exact absurd ⟨by omega, by omega⟩ hnext
  · exact cursorAfter_mono text hge

/-- A character is copied behind those that are there. -/
theorem exists_store_character (hnul : 0 ∉ text) {out : List UInt8} {n : ℕ}
    (hholds : Buffer.Holds out (text.take (cursorAfter text n)))
    (hroom : cursorAfter text (n + 1) + 4 ≤ out.length) :
    ∃ stored, Buffer.store out (cursorAfter text n) ((text.drop (cursorAfter text n)).take
        (vibeUtf8Next (text.drop (cursorAfter text n))).2 ++ [0]) = some stored ∧
      stored.length = out.length ∧
      Buffer.Holds stored (text.take (cursorAfter text (n + 1))) := by
  have htake := hholds.take_eq
  rw [List.length_take_of_le (cursorAfter_le_length hnul n)] at htake
  rw [cursorAfter] at hroom
  have hfits : cursorAfter text n + ((text.drop (cursorAfter text n)).take
      (vibeUtf8Next (text.drop (cursorAfter text n))).2).length + 1 ≤ out.length := by
    have hlength := List.length_take_le (vibeUtf8Next (text.drop (cursorAfter text n))).2
      (text.drop (cursorAfter text n))
    omega
  obtain ⟨stored, hstored, hsize, hholds'⟩ := Buffer.exists_store hfits
  rw [htake, ← List.take_add] at hholds'
  exact ⟨stored, hstored, hsize, hholds'⟩

/-- **The loop** stops with the terminator behind the longest front that leaves room for the
ellipsis, without a store outside of the array. -/
theorem clipLoop_spec (hnul : 0 ∉ text) (n : ℕ) (out : List UInt8)
    (hholds : Buffer.Holds out (text.take (cursorAfter text n)))
    (hroom : cursorAfter text n + 4 ≤ out.length)
    (hnarrow : n = 0 ∨ (frontWidth advance text n : ℤ) ≤ limit) :
    ∃ out' k, clipLoop advance limit (text.drop (cursorAfter text n)) out (cursorAfter text n) =
        some out' ∧ out'.length = out.length ∧
      Buffer.Holds out' (text.take (cursorAfter text k)) ∧
      Clipped advance limit out.length text k := by
  have hle := cursorAfter_le_length hnul n
  cases hrest : text.drop (cursorAfter text n) with
  | nil =>
    -- all of the text is there
    have hend := List.drop_eq_nil_iff.1 hrest
    rw [clipLoop]
    exact ⟨out, n, rfl, rfl, hholds, hroom, hnarrow, fun m _ _ ↦
      (cursorAfter_le_length hnul m).trans hend⟩
  | cons c rest =>
    have hmem : c ∈ text.drop (cursorAfter text n) := hrest ▸ List.mem_cons_self
    have hc : c ≠ 0 := fun hzero ↦ hnul (hzero ▸ List.mem_of_mem_drop hmem)
    have hpos := (vibeUtf8Next_advance hc rest).1
    have hstep : cursorAfter text (n + 1) =
        cursorAfter text n + (vibeUtf8Next (c :: rest)).2 := by rw [cursorAfter, hrest]
    rw [clipLoop, dif_neg hc]
    dsimp only
    by_cases hfull : cursorAfter text n + (vibeUtf8Next (c :: rest)).2 + 4 > out.length
    · rw [if_pos hfull]
      exact ⟨out, n, rfl, rfl, hholds, hroom, hnarrow, longest_of_next fun h ↦ by omega⟩
    rw [if_neg hfull]
    obtain ⟨stored, hstored, hsize, hholds'⟩ :=
      exists_store_character hnul hholds (by omega)
    have hnul' : 0 ∉ text.take (cursorAfter text (n + 1)) := fun h ↦ hnul (List.mem_of_mem_take h)
    rw [hrest] at hstored
    rw [hstored, Option.bind_eq_bind, Option.bind_some, hholds'.string_eq hnul', Option.bind_some,
      textWidth_take hnul]
    by_cases hwide : (frontWidth advance text (n + 1) : ℤ) > limit
    · -- the character is taken back
      rw [if_pos hwide]
      have hfits : cursorAfter text n + ([] : List UInt8).length + 1 ≤ stored.length := by
        rw [hsize, List.length_nil]
        omega
      obtain ⟨undone, hundone, hsize', hholds''⟩ := Buffer.exists_store hfits
      have htake : stored.take (cursorAfter text n) = text.take (cursorAfter text n) := by
        have hfront := hholds'.take_eq
        rw [List.length_take_of_le (cursorAfter_le_length hnul (n + 1))] at hfront
        have hcut := congrArg (List.take (cursorAfter text n)) hfront
        rwa [List.take_take, List.take_take,
          min_eq_left (cursorAfter_mono text (Nat.le_succ n))] at hcut
      rw [List.append_nil, htake] at hholds''
      exact ⟨undone, n, hundone, hsize'.trans hsize, hholds'', hroom, hnarrow,
        longest_of_next fun h ↦ by omega⟩
    · have hdrop : (c :: rest).drop (vibeUtf8Next (c :: rest)).2 =
          text.drop (cursorAfter text (n + 1)) := by rw [hstep, ← List.drop_drop, hrest]
      rw [if_neg hwide, ← hstep, hdrop, ← hsize]
      exact clipLoop_spec hnul (n + 1) stored hholds' (by omega) (Or.inr (not_lt.1 hwide))
termination_by text.length - cursorAfter text n
decreasing_by
  have hnext := cursorAfter_le_length hnul (n + 1)
  omega

end

/-! ### A clipped title -/

section

variable {advance : ℕ → ℕ} {size : ℕ} {width : ℤ} {text : List UInt8}

/-- A text with its terminator is within the array, and within the row. -/
def FitsRow (advance : ℕ → ℕ) (size : ℕ) (width : ℤ) (text : List UInt8) : Prop :=
  text.length < size ∧ (textWidth advance text : ℤ) ≤ width

/-- A front with an ellipsis fits when both do. -/
theorem fitsRow_front_dots (hnul : 0 ∉ text) (n : ℕ) :
    FitsRow advance size width (text.take (cursorAfter text n) ++ dots) ↔
      cursorAfter text n + 4 ≤ size ∧
        (frontWidth advance text n : ℤ) ≤ width - textWidth advance dots := by
  unfold FitsRow
  rw [textWidth_take_append hnul endsCharacter_dots, List.length_append,
    List.length_take_of_le (cursorAfter_le_length hnul n), Nat.cast_add]
  have hthree : dots.length = 3 := rfl
  omega

/-- An ellipsis has no NUL. -/
theorem zero_notMem_dots : 0 ∉ dots := by decide

/-- An empty text has no width. -/
theorem textWidth_nil : textWidth advance [] = 0 := by
  unfold textWidth
  rw [vibeUtf8Walk_nil]
  rfl

/-- What the array holds when the text is too long or too wide. -/
structure Shortened (advance : ℕ → ℕ) (size : ℕ) (width : ℤ) (text result : List UInt8) :
    Prop where
  /-- With room for the dots, a front of the text that ends behind a character comes before them:
  the longest with which both limits are kept. -/
  front : (textWidth advance dots : ℤ) ≤ width → ∃ n,
    result = text.take (cursorAfter text n) ++ dots ∧ FitsRow advance size width result ∧
      ∀ m, FitsRow advance size width (text.take (cursorAfter text m) ++ dots) →
        cursorAfter text m ≤ cursorAfter text n
  /-- Where the dots alone are too wide, nothing is shown. -/
  nothing : width < textWidth advance dots → result = []

/-- The store of the first terminator. -/
theorem exists_store_nul {out : List UInt8} (h : 0 < out.length) :
    ∃ out', Buffer.store out 0 [0] = some out' ∧ out'.length = out.length ∧
      Buffer.Holds out' [] := by
  have hfits : 0 + ([] : List UInt8).length + 1 ≤ out.length := by
    rw [List.length_nil]
    omega
  obtain ⟨out', hout, hlength, hholds⟩ := Buffer.exists_store hfits
  exact ⟨out', hout, hlength, hholds⟩

/-- The part of `note_clip_text` behind the first comparison. -/
theorem exists_shortened (hnul : 0 ∉ text) {out : List UInt8} (hsize : 4 ≤ out.length)
    (hempty : Buffer.Holds out []) :
    ∃ out' result, (do
        let out ← clipLoop advance (width - textWidth advance dots) text out 0
        if (textWidth advance dots : ℤ) ≤ width then Buffer.append out dots else some out) =
          some out' ∧ out'.length = out.length ∧ Buffer.Holds out' result ∧ 0 ∉ result ∧
      Shortened advance out.length width text result := by
  obtain ⟨cut, n, hcut, hlength, hholds, hclipped⟩ := clipLoop_spec hnul 0 out hempty
    (by rw [cursorAfter]; exact hsize) (Or.inl rfl)
  rw [cursorAfter, List.drop_zero] at hcut
  rw [hcut, Option.bind_eq_bind, Option.bind_some]
  have hfront : 0 ∉ text.take (cursorAfter text n) := fun h ↦ hnul (List.mem_of_mem_take h)
  have hroom := hclipped.room
  by_cases hdots : (textWidth advance dots : ℤ) ≤ width
  · rw [if_pos hdots]
    have hthree : dots.length = 3 := rfl
    obtain ⟨joined, hjoined, hlength', hholds'⟩ := Buffer.exists_append hholds hfront
      (show (text.take (cursorAfter text n)).length + dots.length + 1 ≤ cut.length by
        rw [List.length_take_of_le (cursorAfter_le_length hnul n)]
        omega)
    have hnarrow : (frontWidth advance text n : ℤ) ≤ width - textWidth advance dots := by
      rcases hclipped.narrow with rfl | hnarrow
      · rw [frontWidth, List.take_zero, List.map_nil, List.sum_nil]
        omega
      · exact hnarrow
    refine ⟨joined, _, hjoined, hlength'.trans hlength, hholds', ?_, fun _ ↦ ⟨n, rfl, ?_, ?_⟩,
      fun h ↦ absurd hdots (not_le.2 h)⟩
    · exact fun h ↦ (List.mem_append.1 h).elim hfront zero_notMem_dots
    · exact (fitsRow_front_dots hnul n).2 ⟨hroom, hnarrow⟩
    · intro m hm
      obtain ⟨hroom', hnarrow'⟩ := (fitsRow_front_dots hnul m).1 hm
      exact hclipped.longest m hroom' hnarrow'
  · rw [if_neg hdots]
    -- no front is as narrow as a negative limit
    have hzero : n = 0 := by
      rcases hclipped.narrow with hzero | hnarrow
      · exact hzero
      · omega
    subst hzero
    rw [cursorAfter, List.take_zero] at hholds
    exact ⟨cut, [], rfl, hlength, hholds, List.not_mem_nil, fun h ↦ absurd h hdots, fun _ ↦ rfl⟩

/-- **A title is clipped to its row.** Whatever the bytes of the text, for every array of at least
four bytes, every row and every non-negative advances, nothing is stored outside of the array, which
holds a terminated text afterwards: the whole one when it fits, else the longest front that ends
behind a character and leaves room for the dots, with them. It is no wider than the row. -/
theorem noteClipText_spec (advance : ℕ → ℕ) (text : CString) (out : List UInt8) (width : ℤ)
    (hsize : 4 ≤ out.length) :
    ∃ out' result, noteClipText advance (some text) out width = some out' ∧
      out'.length = out.length ∧ Buffer.Holds out' result ∧ 0 ∉ result ∧
      (FitsRow advance out.length width text.bytes → result = text.bytes) ∧
      (¬FitsRow advance out.length width text.bytes →
        Shortened advance out.length width text.bytes result) ∧
      (0 ≤ width → (textWidth advance result : ℤ) ≤ width) := by
  obtain ⟨empty, hempty, hlength, hholds⟩ := exists_store_nul (show 0 < out.length by omega)
  rw [noteClipText, if_neg (by omega), hempty, Option.bind_eq_bind, Option.bind_some]
  dsimp only
  rw [if_neg (by omega)]
  by_cases hfits : FitsRow advance out.length width text.bytes
  · obtain ⟨hroom, hnarrow⟩ := hfits
    rw [if_pos ⟨by omega, hnarrow⟩]
    obtain ⟨whole, hwhole, hlength', hholds'⟩ := Buffer.exists_store
      (show 0 + text.bytes.length + 1 ≤ empty.length by omega)
    exact ⟨whole, text.bytes, hwhole, hlength'.trans hlength, hholds', text.noNul, fun _ ↦ rfl,
      fun h ↦ absurd ⟨hroom, hnarrow⟩ h, fun _ ↦ hnarrow⟩
  · rw [if_neg fun h ↦ hfits ⟨hlength ▸ h.1, h.2⟩]
    obtain ⟨cut, result, hcut, hlength', hholds', hnul, hshort⟩ :=
      exists_shortened text.noNul
        (show 4 ≤ empty.length by omega) hholds
    rw [hlength] at hshort
    refine ⟨cut, result, hcut, hlength'.trans hlength, hholds', hnul, fun h ↦ absurd h hfits,
      fun _ ↦ hshort, fun hpos ↦ ?_⟩
    -- A row that is too narrow for the dots gets nothing.
    rcases le_or_gt (textWidth advance dots : ℤ) width with hdots | hdots
    · obtain ⟨n, rfl, hrow, -⟩ := hshort.front hdots
      exact hrow.2
    · rw [hshort.nothing hdots, textWidth_nil]
      exact hpos

/-- A title of two wide characters and a narrow one, of which not all fit a row of 45 pixels. -/
theorem noteClipText_spec_wide : ∃ out' result,
    noteClipText (fun cp ↦ if cp < 128 then 8 else 16)
      (some ⟨[0xE5, 0xBE, 0x85, 0xE5, 0x8A, 0x9E, 0x41, 0x41], by decide⟩)
        (List.replicate 32 0xFF) 45 = some out' ∧ out'.length = 32 ∧
      Buffer.Holds out' result ∧ 0 ∉ result ∧
      textWidth (fun cp ↦ if cp < 128 then 8 else 16) result ≤ 45 := by
  obtain ⟨out', result, hout, hlength, hholds, hnul, -, -, hwidth⟩ :=
    noteClipText_spec (fun cp ↦ if cp < 128 then 8 else 16)
      ⟨[0xE5, 0xBE, 0x85, 0xE5, 0x8A, 0x9E, 0x41, 0x41], by decide⟩ (List.replicate 32 0xFF) 45
      (by decide)
  exact ⟨out', result, hout, hlength, hholds, hnul, Int.ofNat_le.1 (hwidth (by decide))⟩

end

end VibeUsage
