import VibeUsage.Lib.JsonStrings
import VibeUsage.Todo.Action

/-!
# Guards against U+0000 in JSON

`vibe_json_text_is_cstring_safe` and `smart_todo_json_safe` were written separately for one purpose:
to refuse a JSON text in which a string decodes to text with U+0000, before a parser turns strings
into C strings. What their loops have in common is `NulScanner`, and `NulScanner.scan_derives` is
the one induction over the grammar that says what such a loop answers.

The two loops are instances (`nulScanner_jsonScan`, `nulScanner_vibeJsonScan`), so a third guard
would have to show the fields of `NulScanner` and nothing more. `json_guards_agree` compares the two
on every JSON text within the limits of both; they may differ on what is no JSON, which a parser
refuses afterwards.
-/

namespace VibeUsage

open Rfc8259

/-! ### vibe_json_text_is_cstring_safe -/

/-- The loop over the bytes. -/
def vibeJsonScan : (inString escaped : Bool) → List UInt8 → Bool
  | _, _, [] => true
  | inString, escaped, byte :: rest =>
    if byte = 0 then false
    else if ¬ inString then vibeJsonScan (decide (byte = 0x22)) escaped rest
    else if escaped then
      if byte = 0x75 ∧ rest.take 4 = [0x30, 0x30, 0x30, 0x30] then false
      else vibeJsonScan inString false rest
    else if byte = 0x5C then vibeJsonScan inString true rest
    else if byte = 0x22 then vibeJsonScan false escaped rest
    else vibeJsonScan inString escaped rest

def vibeJsonTextIsCstringSafe (data : List UInt8) : Bool := vibeJsonScan false false data

/-! ### What the loops have in common -/

/-- Neither a terminator nor one of the characters that the loops look for. -/
def PlainOutside (b : UInt8) : Prop :=
  b ≠ 0 ∧ b ≠ 0x22 ∧ b ≠ 0x7B ∧ b ≠ 0x5B ∧ b ≠ 0x7D ∧ b ≠ 0x5D

instance (b : UInt8) : Decidable (PlainOutside b) := inferInstanceAs (Decidable (_ ∧ _))

/-- The same inside a string. -/
def PlainInside (b : UInt8) : Prop := b ≠ 0 ∧ b ≠ 0x22 ∧ b ≠ 0x5C

instance (b : UInt8) : Decidable (PlainInside b) := inferInstanceAs (Decidable (_ ∧ _))

/-- A loop with a string flag, an escape flag and the number of open containers, up to 12. -/
structure NulScanner (f : Bool → Bool → ℕ → List UInt8 → Bool) : Prop where
  outside : ∀ {b : UInt8} (n : ℕ) (rest : List UInt8), PlainOutside b →
    f false false n (b :: rest) = f false false n rest
  opening : ∀ {b : UInt8} {n : ℕ} (rest : List UInt8), (b = 0x7B ∨ b = 0x5B) → n < 12 →
    f false false n (b :: rest) = f false false (n + 1) rest
  closing : ∀ {b : UInt8} (n : ℕ) (rest : List UInt8), (b = 0x7D ∨ b = 0x5D) →
    f false false (n + 1) (b :: rest) = f false false n rest
  openQuote : ∀ (n : ℕ) (rest : List UInt8), f false false n (0x22 :: rest) = f true false n rest
  closeQuote : ∀ (n : ℕ) (rest : List UInt8), f true false n (0x22 :: rest) = f false false n rest
  inside : ∀ {b : UInt8} (n : ℕ) (rest : List UInt8), PlainInside b →
    f true false n (b :: rest) = f true false n rest
  escape : ∀ {e : UInt8} (n : ℕ) (rest : List UInt8), e ≠ 0 → e ≠ 0x75 →
    f true false n (0x5C :: e :: rest) = f true false n rest
  unicode : ∀ (n : ℕ) (rest : List UInt8), f true false n (0x5C :: 0x75 :: rest) =
    (!decide (rest.take 4 = [0x30, 0x30, 0x30, 0x30]) && f true false n rest)

/-- The scanner of the TODO list. -/
theorem nulScanner_jsonScan : NulScanner jsonScan where
  outside := by
    rintro b n rest ⟨hzero, hquote, hbrace, hbracket, hbrace', hbracket'⟩
    simp [jsonScan, hzero, hquote, hbrace, hbracket, hbrace', hbracket']
  opening := by
    rintro b n rest (rfl | rfl) hn
    · simp [jsonScan, show ¬ n + 1 > 12 by omega]
    · simp [jsonScan, show ¬ n + 1 > 12 by omega]
  closing := by
    rintro b n rest (rfl | rfl) <;> simp [jsonScan]
  openQuote := fun n rest ↦ by simp [jsonScan]
  closeQuote := fun n rest ↦ by simp [jsonScan]
  inside := by
    rintro b n rest ⟨hzero, hquote, hslash⟩
    simp [jsonScan, hzero, hquote, hslash]
  escape := by
    intro e n rest hzero hu
    simp [jsonScan, hzero, hu]
  unicode := by
    intro n rest
    by_cases h : rest.take 4 = [0x30, 0x30, 0x30, 0x30] <;> simp [jsonScan, h]

/-- The scanner of the usage client. -/
theorem nulScanner_vibeJsonScan :
    NulScanner fun inString escaped _ bytes ↦ vibeJsonScan inString escaped bytes where
  outside := by
    rintro b n rest ⟨hzero, hquote, -⟩
    simp [vibeJsonScan, hzero, hquote]
  opening := by
    rintro b n rest (rfl | rfl) - <;> simp [vibeJsonScan]
  closing := by
    rintro b n rest (rfl | rfl) <;> simp [vibeJsonScan]
  openQuote := fun n rest ↦ by simp [vibeJsonScan]
  closeQuote := fun n rest ↦ by simp [vibeJsonScan]
  inside := by
    rintro b n rest ⟨hzero, hquote, hslash⟩
    simp [vibeJsonScan, hzero, hquote, hslash]
  escape := by
    intro e n rest hzero hu
    simp [vibeJsonScan, hzero, hu]
  unicode := by
    intro n rest
    by_cases h : rest.take 4 = [0x30, 0x30, 0x30, 0x30] <;> simp [vibeJsonScan, h]

/-! ### Over the grammar -/

/-- No string has a U+0000. -/
def nulFree (strings : List (List ℕ)) : Bool := strings.all fun units ↦ decide (0 ∉ units)

/-- No string has a U+0000. -/
theorem nulFree_iff {strings : List (List ℕ)} :
    nulFree strings = true ↔ ∀ units ∈ strings, 0 ∉ units := by
  simp [nulFree]

/-- Strings of both parts. -/
theorem nulFree_append (s s' : List (List ℕ)) :
    nulFree (s ++ s') = (nulFree s && nulFree s') := List.all_append

/-- A string and the others. -/
theorem nulFree_cons (units : List ℕ) (strings : List (List ℕ)) :
    nulFree (units :: strings) = (decide (0 ∉ units) && nulFree strings) := List.all_cons

namespace NulScanner

variable {f : Bool → Bool → ℕ → List UInt8 → Bool}

/-- Plain bytes between strings are skipped. -/
theorem skip_outside (hf : NulScanner f) {bytes : List UInt8} (h : ∀ b ∈ bytes, PlainOutside b)
    (n : ℕ) (rest : List UInt8) : f false false n (bytes ++ rest) = f false false n rest := by
  induction bytes with
  | nil => rfl
  | cons b bytes ih =>
    rw [List.cons_append, hf.outside n _ (h b List.mem_cons_self)]
    exact ih fun b' hb' ↦ h b' (List.mem_cons_of_mem b hb')

/-- Plain bytes inside a string are skipped. -/
theorem skip_inside (hf : NulScanner f) {bytes : List UInt8} (h : ∀ b ∈ bytes, PlainInside b)
    (n : ℕ) (rest : List UInt8) : f true false n (bytes ++ rest) = f true false n rest := by
  induction bytes with
  | nil => rfl
  | cons b bytes ih =>
    rw [List.cons_append, hf.inside n _ (h b List.mem_cons_self)]
    exact ih fun b' hb' ↦ h b' (List.mem_cons_of_mem b hb')

/-- Space is skipped. -/
theorem skip_ws (hf : NulScanner f) {w : List UInt8} (h : Ws w) (n : ℕ) (rest : List UInt8) :
    f false false n (w ++ rest) = f false false n rest := by
  refine hf.skip_outside (fun b hb ↦ ?_) n rest
  rcases h b hb with rfl | rfl | rfl | rfl <;> decide

/-- **A number** is skipped. -/
theorem skip_number (hf : NulScanner f) {t : List UInt8} (h : IsNumber t) (n : ℕ)
    (rest : List UInt8) : f false false n (t ++ rest) = f false false n rest := by
  have hplain : ∀ b : UInt8, NumberByte b → PlainOutside b := by decide +kernel
  obtain ⟨c, ds, rfl, hc, hds⟩ := exists_cons_of_isNumber h
  refine hf.skip_outside (fun b hb ↦ hplain b ?_) n rest
  rcases List.mem_cons.1 hb with rfl | hb
  · rcases hc with rfl | hc
    · decide
    · exact Or.inl hc
  · exact hds b hb

/-- A character that needs no escape is skipped. -/
theorem skip_char (hf : NulScanner f) {c : Char} (hctl : 0x20 ≤ c.toNat) (hquote : c ≠ '"')
    (hslash : c ≠ '\\') (n : ℕ) (rest : List UInt8) :
    f true false n (String.utf8EncodeChar c ++ rest) = f true false n rest := by
  have hne : ∀ d : Char, c ≠ d → c.toNat ≠ d.toNat := fun d hcd h ↦ hcd (Char.toNat_inj.1 h)
  have hq := hne '"' hquote
  have hs := hne '\\' hslash
  have hle := (Utf8.isScalar_toNat c).1
  have hplain : ∀ {b : UInt8}, 0x20 ≤ b.toNat → b.toNat ≠ 0x22 → b.toNat ≠ 0x5C →
      PlainInside b := by
    intro b h h' h''
    unfold PlainInside
    simp only [ne_eq, ← UInt8.toNat_inj, UInt8.reduceToNat]
    omega
  have hlead : ∀ {m : ℕ}, 0x80 ≤ m → m < 256 → PlainInside (UInt8.ofNat m) := by
    intro m hm hm'
    have hval := Utf8.toNat_ofNat_of_lt hm'
    exact hplain (by omega) (by omega) (by omega)
  -- Every byte of a longer encoding is at least 0x80, so none is a quote or a backslash.
  have htail : ∀ m : ℕ, PlainInside (Utf8.tail m) := fun m ↦ by
    have hval := Utf8.toNat_tail m
    exact hplain (by omega) (by omega) (by omega)
  refine hf.skip_inside (fun b hb ↦ ?_) n rest
  rw [Utf8.utf8EncodeChar_eq] at hb
  unfold Utf8.encode at hb
  split_ifs at hb
  · obtain rfl := List.mem_singleton.1 hb
    have hval : (UInt8.ofNat c.toNat).toNat = c.toNat := Utf8.toNat_ofNat_of_lt (by omega)
    exact hplain (by rw [hval]; exact hctl) (by rw [hval]; exact hq) (by rw [hval]; exact hs)
  · simp only [List.mem_cons, List.not_mem_nil, or_false] at hb
    rcases hb with rfl | rfl
    · exact hlead (by omega) (by omega)
    · exact htail _
  · simp only [List.mem_cons, List.not_mem_nil, or_false] at hb
    rcases hb with rfl | rfl | rfl
    · exact hlead (by omega) (by omega)
    · exact htail _
    · exact htail _
  · simp only [List.mem_cons, List.not_mem_nil, or_false] at hb
    rcases hb with rfl | rfl | rfl | rfl
    · exact hlead (by omega) (by omega)
    · exact htail _
    · exact htail _
    · exact htail _

/-- Four hexadecimal digits are plain, and zeros exactly when they name zero. -/
theorem hex4_eq_some {h₁ h₂ h₃ h₄ : UInt8} {m : ℕ} (h : hex4? h₁ h₂ h₃ h₄ = some m) :
    (∀ b ∈ [h₁, h₂, h₃, h₄], PlainInside b) ∧
      (m = 0 ↔ [h₁, h₂, h₃, h₄] = [0x30, 0x30, 0x30, 0x30]) := by
  have hdigit : ∀ b : UInt8, (hexDigit? b).isSome = true →
      PlainInside b ∧ (hexDigit? b = some 0 ↔ b = 0x30) := by decide +kernel
  have hread : ∀ {b : UInt8} {k : ℕ}, hexDigit? b = some k →
      PlainInside b ∧ (k = 0 ↔ b = 0x30) := by
    intro b k hb
    obtain ⟨hplain, hzero⟩ := hdigit b (by rw [hb]; rfl)
    rw [hb, Option.some.injEq] at hzero
    exact ⟨hplain, hzero⟩
  unfold hex4? at h
  obtain ⟨a, ha, h⟩ := Option.bind_eq_some_iff.1 h
  obtain ⟨b, hb, h⟩ := Option.bind_eq_some_iff.1 h
  obtain ⟨c, hc, h⟩ := Option.bind_eq_some_iff.1 h
  obtain ⟨d, hd, h⟩ := Option.bind_eq_some_iff.1 h
  obtain rfl := Option.some.inj h
  obtain ⟨pa, za⟩ := hread ha
  obtain ⟨pb, zb⟩ := hread hb
  obtain ⟨pc, zc⟩ := hread hc
  obtain ⟨pd, zd⟩ := hread hd
  refine ⟨by simp [pa, pb, pc, pd], ?_⟩
  simp only [List.cons.injEq, and_true, ← za, ← zb, ← zc, ← zd]
  omega

/-- **Inside a string**, up to its closing quotation mark. -/
theorem scan_units (hf : NulScanner f) {raw : List UInt8} {units : List ℕ} (h : Units raw units)
    (n : ℕ) (rest : List UInt8) : f true false n (raw ++ 0x22 :: rest) =
      (decide (0 ∉ units) && f false false n rest) := by
  induction h with
  | nil => simp [hf.closeQuote]
  | unescaped c hctl hquote hslash _ ih =>
    have hne : (0 : ℕ) ≠ c.toNat := by omega
    rw [List.append_assoc, hf.skip_char hctl hquote hslash, ih]
    simp [hne]
  | @escape raw units e d hd _ ih =>
    have hescape : ∀ e d : UInt8, simpleEscape? e = some d → e ≠ 0 ∧ e ≠ 0x75 ∧ d.toNat ≠ 0 := by
      decide +kernel
    obtain ⟨hzero, hu, hnul⟩ := hescape e d hd
    rw [List.cons_append, List.cons_append, hf.escape n _ hzero hu, ih]
    simp [Ne.symm hnul]
  | @unicode raw units h₁ h₂ h₃ h₄ m hm _ ih =>
    obtain ⟨hplain, hzeros⟩ := hex4_eq_some hm
    have hskip := hf.skip_inside hplain n (raw ++ 0x22 :: rest)
    have htake : (h₁ :: h₂ :: h₃ :: h₄ :: (raw ++ 0x22 :: rest)).take 4 = [h₁, h₂, h₃, h₄] := rfl
    simp only [List.cons_append]
    rw [hf.unicode, htake, ← List.nil_append (raw ++ 0x22 :: rest)]
    simp only [← List.cons_append]
    rw [hskip, ih]
    -- the four digits are zeros exactly when the unit is U+0000
    by_cases h : m = 0
    · simp [hzeros.1 h, h]
    · simp [mt hzeros.2 h, Ne.symm h]

mutual

/-- **A value is scanned through**, unless a string has a U+0000. -/
theorem scan_derives (hf : NulScanner f) : ∀ {depth : ℕ} {strings : List (List ℕ)}
    {b : List UInt8}, Derives depth strings b → ∀ (n : ℕ) (rest : List UInt8), n + depth ≤ 12 →
      f false false n (b ++ rest) = (nulFree strings && f false false n rest)
  | _, _, _, .null, n, rest, _ => by
    rw [hf.skip_outside (by decide +kernel)]
    rfl
  | _, _, _, .true, n, rest, _ => by
    rw [hf.skip_outside (by decide +kernel)]
    rfl
  | _, _, _, .false, n, rest, _ => by
    rw [hf.skip_outside (by decide +kernel)]
    rfl
  | _, _, _, .number h, n, rest, _ => by
    rw [hf.skip_number h]
    rfl
  | _, _, _, .string h, n, rest, _ => by
    rw [List.cons_append, List.cons_append, List.append_assoc, hf.openQuote, List.singleton_append,
      hf.scan_units h, nulFree_cons]
    simp [nulFree]
  | _, _, _, .emptyArray hw, n, rest, hdepth => by
    rw [List.cons_append, List.cons_append, List.append_assoc, hf.opening _ (Or.inr rfl) (by omega),
      hf.skip_ws hw, List.singleton_append, hf.closing _ _ (Or.inr rfl)]
    rfl
  | _, _, _, .array h, n, rest, hdepth => by
    rw [List.cons_append, List.cons_append, List.append_assoc, hf.opening _ (Or.inr rfl) (by omega),
      -- The depth is counted on the way in, and the bound leaves room for it.
      scan_items hf h (n + 1) _ (by omega), List.singleton_append, hf.closing _ _ (Or.inr rfl)]
  | _, _, _, .emptyObject hw, n, rest, hdepth => by
    rw [List.cons_append, List.cons_append, List.append_assoc, hf.opening _ (Or.inl rfl) (by omega),
      hf.skip_ws hw, List.singleton_append, hf.closing _ _ (Or.inl rfl)]
    rfl
  | _, _, _, .object h, n, rest, hdepth => by
    rw [List.cons_append, List.cons_append, List.append_assoc, hf.opening _ (Or.inl rfl) (by omega),
      scan_members hf h (n + 1) _ (by omega), List.singleton_append, hf.closing _ _ (Or.inl rfl)]

/-- **The items of an array**, by the grammar. -/
theorem scan_items (hf : NulScanner f) : ∀ {depth : ℕ} {strings : List (List ℕ)}
    {b : List UInt8}, DerivesItems depth strings b → ∀ (n : ℕ) (rest : List UInt8),
      n + depth ≤ 12 → f false false n (b ++ rest) = (nulFree strings && f false false n rest)
  | _, _, _, .last hw₁ h hw₂, n, rest, hdepth => by
    rw [List.append_assoc, List.append_assoc, hf.skip_ws hw₁, scan_derives hf h n _ hdepth,
      hf.skip_ws hw₂]
  | _, _, _, .more hw₁ h hw₂ hrest, n, rest, hdepth => by
    rw [List.append_assoc, List.append_assoc, List.append_assoc, List.cons_append, hf.skip_ws hw₁,
      scan_derives hf h n _ (by omega), hf.skip_ws hw₂, hf.outside n _ (by decide),
      scan_items hf hrest n _ (by omega), nulFree_append, Bool.and_assoc]

/-- **The members of an object**, by the grammar. -/
theorem scan_members (hf : NulScanner f) : ∀ {depth : ℕ} {strings : List (List ℕ)}
    {b : List UInt8}, DerivesMembers depth strings b → ∀ (n : ℕ) (rest : List UInt8),
      n + depth ≤ 12 → f false false n (b ++ rest) = (nulFree strings && f false false n rest)
  | _, _, _, .last hw₁ hname hw₂ hw₃ h hw₄, n, rest, hdepth => by
    simp only [List.append_assoc, List.cons_append, List.nil_append]
    rw [hf.skip_ws hw₁, hf.openQuote, hf.scan_units hname, hf.skip_ws hw₂,
      hf.outside n _ (by decide), hf.skip_ws hw₃, scan_derives hf h n _ hdepth, hf.skip_ws hw₄,
      nulFree_cons, Bool.and_assoc]
  | _, _, _, .more hw₁ hname hw₂ hw₃ h hw₄ hrest, n, rest, hdepth => by
    simp only [List.append_assoc, List.cons_append, List.nil_append]
    rw [hf.skip_ws hw₁, hf.openQuote, hf.scan_units hname, hf.skip_ws hw₂,
      hf.outside n _ (by decide), hf.skip_ws hw₃, scan_derives hf h n _ (by omega),
      hf.skip_ws hw₄, hf.outside n _ (by decide), scan_members hf hrest n _ (by omega),
      nulFree_cons, nulFree_append]
    simp only [Bool.and_assoc]

end

/-- **A whole text.** -/
theorem scan_text (hf : NulScanner f) {depth : ℕ} {strings : List (List ℕ)} {t : List UInt8}
    (h : DerivesText depth strings t) (hdepth : depth ≤ 12) :
    f false false 0 t = (nulFree strings && f false false 0 []) := by
  obtain ⟨w₁, b, w₂, hw₁, hb, hw₂, rfl⟩ := h
  have hend := hf.skip_ws hw₂ 0 []
  rw [List.append_nil] at hend
  rw [List.append_assoc, hf.skip_ws hw₁, hf.scan_derives hb 0 _ (by omega), hend]

end NulScanner

/-! ### The two guards -/

/-- **The guards agree**, and on the texts within their limits they accept those without a U+0000.
-/
theorem json_guards_agree {depth : ℕ} {strings : List (List ℕ)} {t : List UInt8}
    (h : DerivesText depth strings t) (hpos : 1 ≤ t.length) (hle : t.length ≤ 8192)
    (hdepth : depth ≤ 12) :
    vibeJsonTextIsCstringSafe t = smartTodoJsonSafe t ∧
      (smartTodoJsonSafe t = true ↔ ∀ units ∈ strings, 0 ∉ units) := by
  have hvibe : vibeJsonTextIsCstringSafe t = nulFree strings := by
    have hscan := nulScanner_vibeJsonScan.scan_text h hdepth
    rw [vibeJsonScan, Bool.and_true] at hscan
    exact hscan
  have htodo : smartTodoJsonSafe t = nulFree strings := by
    have hscan := nulScanner_jsonScan.scan_text h hdepth
    rw [smartTodoJsonSafe, if_neg (by omega), hscan, jsonScan]
    simp
  rw [hvibe, htodo, nulFree_iff]
  exact ⟨rfl, Iff.rfl⟩

/-- A string of a backslash, escaped, and U+0000. -/
theorem json_guards_agree_backslashes :
    let t : List UInt8 := [0x22, 0x5C, 0x5C, 0x5C, 0x75, 0x30, 0x30, 0x30, 0x30, 0x22]
    vibeJsonTextIsCstringSafe t = smartTodoJsonSafe t ∧
      (smartTodoJsonSafe t = true ↔ ∀ units ∈ [[0x5C, 0]], (0 : ℕ) ∉ units) := by
  have hunits : Units [0x5C, 0x5C, 0x5C, 0x75, 0x30, 0x30, 0x30, 0x30] [0x5C, 0] :=
    .escape (d := 0x5C) rfl (.unicode (n := 0) rfl .nil)
  exact json_guards_agree ⟨[], _, [], by simp [Ws], .string hunits, by simp [Ws], rfl⟩ (by decide)
    (by decide) (by decide)

end VibeUsage
