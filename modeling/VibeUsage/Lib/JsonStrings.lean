import VibeUsage.Lib.Json
import VibeUsage.Lib.Utf8

/-!
# The strings of a JSON text

The ABNF of RFC 8259 once more, with nothing kept of a value but how deep it is and what its
strings, keys and values alike, decode to. A `\u` escape here is whatever sixteen bits it names: the
grammar admits surrogates without a partner, which have no UTF-8 and so no `Value`.

The texts of `Value`s are among those derived here (`derives_of_isText`), so that a result about all
derivations holds of them.
-/

namespace Rfc8259

/-- `*char`, with the code points it decodes to; a `\u` escape stands for the unit it names. -/
inductive Units : List UInt8 → List ℕ → Prop where
  | nil : Units [] []
  | unescaped {raw : List UInt8} {units : List ℕ} (c : Char) (hctl : 0x20 ≤ c.toNat)
      (hquote : c ≠ '"') (hslash : c ≠ '\\') (rest : Units raw units) :
      Units (String.utf8EncodeChar c ++ raw) (c.toNat :: units)
  | escape {raw : List UInt8} {units : List ℕ} {e d : UInt8} (h : simpleEscape? e = some d)
      (rest : Units raw units) : Units (0x5C :: e :: raw) (d.toNat :: units)
  | unicode {raw : List UInt8} {units : List ℕ} {h₁ h₂ h₃ h₄ : UInt8} {n : ℕ}
      (h : hex4? h₁ h₂ h₃ h₄ = some n) (rest : Units raw units) :
      Units (0x5C :: 0x75 :: h₁ :: h₂ :: h₃ :: h₄ :: raw) (n :: units)

mutual

/-- `value`, with its depth and its strings. -/
inductive Derives : ℕ → List (List ℕ) → List UInt8 → Prop where
  | null : Derives 0 [] [0x6E, 0x75, 0x6C, 0x6C]
  | true : Derives 0 [] [0x74, 0x72, 0x75, 0x65]
  | false : Derives 0 [] [0x66, 0x61, 0x6C, 0x73, 0x65]
  | number {t : List UInt8} (h : IsNumber t) : Derives 0 [] t
  | string {raw : List UInt8} {units : List ℕ} (h : Units raw units) :
      Derives 0 [units] (0x22 :: raw ++ [0x22])
  | emptyArray {w : List UInt8} (hw : Ws w) : Derives 1 [] (0x5B :: w ++ [0x5D])
  | array {depth : ℕ} {strings : List (List ℕ)} {body : List UInt8}
      (h : DerivesItems depth strings body) :
      Derives (depth + 1) strings (0x5B :: body ++ [0x5D])
  | emptyObject {w : List UInt8} (hw : Ws w) : Derives 1 [] (0x7B :: w ++ [0x7D])
  | object {depth : ℕ} {strings : List (List ℕ)} {body : List UInt8}
      (h : DerivesMembers depth strings body) :
      Derives (depth + 1) strings (0x7B :: body ++ [0x7D])

/-- `value *( value-separator value )`. -/
inductive DerivesItems : ℕ → List (List ℕ) → List UInt8 → Prop where
  | last {depth : ℕ} {strings : List (List ℕ)} {w₁ b w₂ : List UInt8} (hw₁ : Ws w₁)
      (h : Derives depth strings b) (hw₂ : Ws w₂) : DerivesItems depth strings (w₁ ++ b ++ w₂)
  | more {depth depth' : ℕ} {strings strings' : List (List ℕ)} {w₁ b w₂ r : List UInt8}
      (hw₁ : Ws w₁) (h : Derives depth strings b) (hw₂ : Ws w₂)
      (hrest : DerivesItems depth' strings' r) :
      DerivesItems (max depth depth') (strings ++ strings') (w₁ ++ b ++ w₂ ++ 0x2C :: r)

/-- `member *( value-separator member )`. -/
inductive DerivesMembers : ℕ → List (List ℕ) → List UInt8 → Prop where
  | last {depth : ℕ} {strings : List (List ℕ)} {units : List ℕ} {w₁ raw w₂ w₃ b w₄ : List UInt8}
      (hw₁ : Ws w₁) (hname : Units raw units) (hw₂ : Ws w₂) (hw₃ : Ws w₃)
      (h : Derives depth strings b) (hw₄ : Ws w₄) :
      DerivesMembers depth (units :: strings)
        (w₁ ++ (0x22 :: raw ++ [0x22]) ++ w₂ ++ 0x3A :: (w₃ ++ b ++ w₄))
  | more {depth depth' : ℕ} {strings strings' : List (List ℕ)} {units : List ℕ}
      {w₁ raw w₂ w₃ b w₄ r : List UInt8} (hw₁ : Ws w₁) (hname : Units raw units) (hw₂ : Ws w₂)
      (hw₃ : Ws w₃) (h : Derives depth strings b) (hw₄ : Ws w₄)
      (hrest : DerivesMembers depth' strings' r) :
      DerivesMembers (max depth depth') (units :: strings ++ strings')
        (w₁ ++ (0x22 :: raw ++ [0x22]) ++ w₂ ++ 0x3A :: (w₃ ++ b ++ w₄ ++ 0x2C :: r))

end

/-- `JSON-text = ws value ws`, with its depth and its strings. -/
def DerivesText (depth : ℕ) (strings : List (List ℕ)) (t : List UInt8) : Prop :=
  ∃ w₁ b w₂, Ws w₁ ∧ Derives depth strings b ∧ Ws w₂ ∧ t = w₁ ++ b ++ w₂

/-! ### From the values -/

mutual

/-- The strings of a value, names and values alike. -/
def Value.texts : Value → List (List UInt8)
  | .string text => [text]
  | .array items => itemsTexts items
  | .object members => membersTexts members
  | _ => []

def itemsTexts : List Value → List (List UInt8)
  | [] => []
  | v :: vs => v.texts ++ itemsTexts vs

def membersTexts : List (List UInt8 × Value) → List (List UInt8)
  | [] => []
  | (name, v) :: ms => name :: v.texts ++ membersTexts ms

end

/-- The characters of a string with a value are code points; none of them is U+0000 when there is no
zero among the octets. -/
theorem units_of_chars {raw text : List UInt8} (h : Chars raw text) (hnul : 0 ∉ text) :
    ∃ units, Units raw units ∧ 0 ∉ units := by
  induction h with
  | nil => exact ⟨[], .nil, by simp⟩
  | unescaped c hctl hquote hslash _ ih =>
    obtain ⟨units, hunits, hfree⟩ := ih fun h ↦ hnul (List.mem_append_right _ h)
    refine ⟨c.toNat :: units, .unescaped c hctl hquote hslash hunits, ?_⟩
    rw [List.mem_cons, not_or]
    exact ⟨by omega, hfree⟩
  | @escape raw text e d hd _ ih =>
    obtain ⟨units, hunits, hfree⟩ := ih fun h ↦ hnul (List.mem_cons_of_mem _ h)
    have hescape : ∀ e d : UInt8, simpleEscape? e = some d → d.toNat ≠ 0 := by decide +kernel
    refine ⟨d.toNat :: units, .escape hd hunits, ?_⟩
    rw [List.mem_cons, not_or]
    exact ⟨(hescape e d hd).symm, hfree⟩
  | unicode c hhex _ ih =>
    obtain ⟨units, hunits, hfree⟩ := ih fun h ↦ hnul (List.mem_append_right _ h)
    refine ⟨c.toNat :: units, .unicode hhex hunits, ?_⟩
    rw [List.mem_cons, not_or]
    refine ⟨fun hzero ↦ hnul (List.mem_append_left _ ?_), hfree⟩
    rw [Utf8.utf8EncodeChar_eq, ← hzero]
    decide
  | surrogates c hhex lhex hhi hlo hc _ ih =>
    obtain ⟨units, hunits, hfree⟩ := ih fun h ↦ hnul (List.mem_append_right _ h)
    refine ⟨_, .unicode hhex (.unicode lhex hunits), ?_⟩
    rw [List.mem_cons, List.mem_cons, not_or, not_or]
    exact ⟨by omega, by omega, hfree⟩

mutual

/-- **The text of a value is derived**, at the depth of the value, and has a U+0000 only where the
value has one. -/
theorem derives_of_isText : ∀ {v : Value} {t : List UInt8}, IsText v t → (∀ s ∈ v.texts, 0 ∉ s) →
    ∃ strings, Derives v.depth strings t ∧ ∀ units ∈ strings, 0 ∉ units
  | .null, _, h, _ => by
    obtain rfl := h
    exact ⟨[], .null, by simp⟩
  | .bool true, _, h, _ => by
    obtain rfl := h
    exact ⟨[], .true, by simp⟩
  | .bool false, _, h, _ => by
    obtain rfl := h
    exact ⟨[], .false, by simp⟩
  | .number _, _, h, _ => by
    obtain ⟨rfl, hnumber⟩ := h
    exact ⟨[], .number hnumber, by simp⟩
  | .string text, _, h, hnul => by
    obtain ⟨raw, hchars, rfl⟩ := h
    obtain ⟨units, hunits, hfree⟩ := units_of_chars hchars (hnul text (by simp [Value.texts]))
    exact ⟨[units], .string hunits, by simpa using hfree⟩
  | .array [], _, h, _ => by
    obtain ⟨body, rfl, hws⟩ := h
    exact ⟨[], .emptyArray hws, by simp⟩
  | .array (v :: vs), _, h, hnul => by
    obtain ⟨body, rfl, hitems⟩ := h
    obtain ⟨strings, hbody, hfree⟩ := derivesItems_of_isItems (List.cons_ne_nil v vs) hitems hnul
    exact ⟨strings, .array hbody, hfree⟩
  | .object [], _, h, _ => by
    obtain ⟨body, rfl, hws⟩ := h
    exact ⟨[], .emptyObject hws, by simp⟩
  | .object (m :: ms), _, h, hnul => by
    obtain ⟨body, rfl, hmembers⟩ := h
    obtain ⟨strings, hbody, hfree⟩ :=
      derivesMembers_of_isMembers (List.cons_ne_nil m ms) hmembers hnul
    exact ⟨strings, .object hbody, hfree⟩

/-- **The strings of an array**, by the grammar. -/
theorem derivesItems_of_isItems : ∀ {vs : List Value} {t : List UInt8}, vs ≠ [] →
    IsItems vs t → (∀ s ∈ itemsTexts vs, 0 ∉ s) →
    ∃ strings, DerivesItems (itemsDepth vs) strings t ∧ ∀ units ∈ strings, 0 ∉ units
  | [], _, hne, _, _ => absurd rfl hne
  | [v], _, _, h, hnul => by
    obtain ⟨w₁, b, w₂, hw₁, hb, hw₂, rfl⟩ := h
    obtain ⟨strings, hb, hfree⟩ := derives_of_isText hb fun s hs ↦
      hnul s (by simp [itemsTexts, hs])
    refine ⟨strings, ?_, hfree⟩
    rw [itemsDepth, itemsDepth, Nat.max_zero]
    exact .last hw₁ hb hw₂
  | v :: u :: vs, _, _, h, hnul => by
    obtain ⟨w₁, b, w₂, r, hw₁, hb, hw₂, hr, rfl⟩ := h
    obtain ⟨strings, hb, hfree⟩ := derives_of_isText hb fun s hs ↦
      hnul s (by rw [itemsTexts]; exact List.mem_append_left _ hs)
    obtain ⟨strings', hr, hfree'⟩ := derivesItems_of_isItems (List.cons_ne_nil u vs) hr
      fun s hs ↦ hnul s (by rw [itemsTexts]; exact List.mem_append_right _ hs)
    refine ⟨strings ++ strings', .more hw₁ hb hw₂ hr, fun units hunits ↦ ?_⟩
    exact (List.mem_append.1 hunits).elim (hfree units) (hfree' units)

/-- **The strings of an object**, by the grammar. -/
theorem derivesMembers_of_isMembers : ∀ {ms : List (List UInt8 × Value)} {t : List UInt8},
    ms ≠ [] → IsMembers ms t → (∀ s ∈ membersTexts ms, 0 ∉ s) →
    ∃ strings, DerivesMembers (membersDepth ms) strings t ∧ ∀ units ∈ strings, 0 ∉ units
  | [], _, hne, _, _ => absurd rfl hne
  | [(k, v)], _, _, h, hnul => by
    obtain ⟨w₁, s, w₂, w₃, b, w₄, hw₁, ⟨raw, hchars, rfl⟩, hw₂, hw₃, hb, hw₄, rfl⟩ := h
    obtain ⟨units, hunits, hname⟩ := units_of_chars hchars (hnul k (by simp [membersTexts]))
    obtain ⟨strings, hb, hfree⟩ := derives_of_isText hb fun s hs ↦
      hnul s (by simp [membersTexts, hs])
    refine ⟨units :: strings, ?_, List.forall_mem_cons.2 ⟨hname, hfree⟩⟩
    rw [membersDepth, membersDepth, Nat.max_zero]
    exact .last hw₁ hunits hw₂ hw₃ hb hw₄
  | (k, v) :: m :: ms, _, _, h, hnul => by
    obtain ⟨w₁, s, w₂, w₃, b, w₄, r, hw₁, ⟨raw, hchars, rfl⟩, hw₂, hw₃, hb, hw₄, hr, rfl⟩ := h
    have hmem : ∀ s, s = k ∨ s ∈ v.texts ∨ s ∈ membersTexts (m :: ms) →
        s ∈ membersTexts ((k, v) :: m :: ms) := fun s hs ↦ by
      rw [membersTexts, List.cons_append, List.mem_cons, List.mem_append]
      exact hs
    obtain ⟨units, hunits, hname⟩ := units_of_chars hchars (hnul k (hmem k (.inl rfl)))
    obtain ⟨strings, hb, hfree⟩ := derives_of_isText hb fun s hs ↦
      hnul s (hmem s (.inr (.inl hs)))
    obtain ⟨strings', hr, hfree'⟩ := derivesMembers_of_isMembers (List.cons_ne_nil m ms) hr
      fun s hs ↦ hnul s (hmem s (.inr (.inr hs)))
    refine ⟨units :: strings ++ strings', .more hw₁ hunits hw₂ hw₃ hb hw₄ hr, fun u hu ↦ ?_⟩
    rcases List.mem_append.1 hu with hu | hu
    · exact (List.mem_cons.1 hu).elim (fun h ↦ h ▸ hname) (hfree u)
    · exact hfree' u hu

end

end Rfc8259
