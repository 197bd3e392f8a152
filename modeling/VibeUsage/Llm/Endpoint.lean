import VibeUsage.Lib.InetAton

/-!
# Endpoints

`llm_endpoint_valid` of `llm_endpoint.c`: an endpoint over HTTP is at a private IPv4 address, one
over HTTPS at a public IPv4 address or has a DNS name. An address is one only as a dotted quad; any
other host is taken for a name when its labels are those of a name and its last byte is a letter.

* `ipv4_eq_some` says that a quad is read as its bytes, `endsInLetter_of_dnsName` that no quad is
  taken for a name.
* `numericHost_iff` is about any resolver that reads dotted quads, whatever else it takes for an
  address: an accepted host that it takes for one is a dotted quad, and over HTTPS a public one,
  unless the host is a number for it and ends in a letter.
-/

namespace VibeUsage

/-- `digit` -/
def digit (c : UInt8) : Bool := '0'.toUInt8 ≤ c && c ≤ '9'.toUInt8

/-- `alpha` -/
def alpha (c : UInt8) : Bool :=
  ('a'.toUInt8 ≤ c && c ≤ 'z'.toUInt8) || ('A'.toUInt8 ≤ c && c ≤ 'Z'.toUInt8)

/-- `suffix` -/
def hostSuffix (host tail : List UInt8) : Bool :=
  decide (tail.length ≤ host.length) &&
    decide ((host.drop (host.length - tail.length)).map (fun c ↦
      if 'A'.toUInt8 ≤ c ∧ c ≤ 'Z'.toUInt8 then c + ('a'.toUInt8 - 'A'.toUInt8) else c) = tail)

/-- The loops over the digits of a number, which stop at more than `maxCount` digits and above
`maxValue`: the value, the number of digits, and what follows them. -/
def boundedDigits (maxCount maxValue : ℕ) :
    (value count : ℕ) → List UInt8 → Option (ℕ × ℕ × List UInt8)
  | value, count, [] => some (value, count, [])
  | value, count, c :: rest =>
    if digit c then
      if count + 1 > maxCount ∨ value * 10 + (c.toNat - '0'.toNat) > maxValue then none
      else boundedDigits maxCount maxValue (value * 10 + (c.toNat - '0'.toNat)) (count + 1) rest
    else some (value, count, c :: rest)

/-- One round of the loop of `ipv4`, up to the dot: the octet, and what follows it. -/
def octet (host : List UInt8) : Option (ℕ × List UInt8) :=
  match boundedDigits 3 255 0 0 host with
  | none => none
  | some (value, count, rest) =>
    if count = 0 ∨ (count > 1 ∧ host.head? = some '0'.toUInt8) then none else some (value, rest)

/-- `if (i < 3 && (cursor >= length || host[cursor++] != '.')) return false;` -/
def afterDot : List UInt8 → Option (List UInt8)
  | c :: rest => if c = '.'.toUInt8 then some rest else none
  | [] => none

/-- `ipv4`, with the octets. -/
def ipv4 (host : List UInt8) : Option (ℕ × ℕ × ℕ × ℕ) := do
  let (a, rest) ← octet host
  let rest ← afterDot rest
  let (b, rest) ← octet rest
  let rest ← afterDot rest
  let (c, rest) ← octet rest
  let rest ← afterDot rest
  let (d, rest) ← octet rest
  if rest = [] then some (a, b, c, d) else none

/-- `private_ipv4` -/
def privateIpv4 : ℕ × ℕ × ℕ × ℕ → Bool
  | (a, b, _, _) => a = 10 || (a = 172 && b ≥ 16 && b ≤ 31) || (a = 192 && b = 168)

/-- `public_ipv4` -/
def publicIpv4 : ℕ × ℕ × ℕ × ℕ → Bool
  | (a, b, c, d) =>
    !(privateIpv4 (a, b, c, d) || a = 0 || a = 127 || a ≥ 224 ||
      (a = 100 && b ≥ 64 && b ≤ 127) ||
      (a = 169 && b = 254) ||
      (a = 192 && b = 0 && (c = 0 || c = 2)) ||
      (a = 198 && (b = 18 || b = 19 || (b = 51 && c = 100))) ||
      (a = 203 && b = 0 && c = 113))

/-- The loop of `dns_name`, after a byte: the length of the last label, and whether there is a dot.
-/
def dnsLabels : (previous : UInt8) → (label : ℕ) → (dot : Bool) → List UInt8 → Option (ℕ × Bool)
  | _, label, dot, [] => some (label, dot)
  | previous, label, dot, c :: rest =>
    if c = '.'.toUInt8 then
      if label = 0 ∨ previous = '-'.toUInt8 then none else dnsLabels c 0 true rest
    else if alpha c = false ∧ digit c = false ∧ c ≠ '-'.toUInt8 then none
    else if (label = 0 ∧ c = '-'.toUInt8) ∨ label + 1 > 63 then none
    else dnsLabels c (label + 1) dot rest

/-- `".local"`, `".localhost"`, `".internal"` and `".invalid"` -/
def localSuffixes : List (List UInt8) :=
  [ascii ['.', 'l', 'o', 'c', 'a', 'l'],
    ascii ['.', 'l', 'o', 'c', 'a', 'l', 'h', 'o', 's', 't'],
    ascii ['.', 'i', 'n', 't', 'e', 'r', 'n', 'a', 'l'],
    ascii ['.', 'i', 'n', 'v', 'a', 'l', 'i', 'd']]

/-- `dns_name` -/
def dnsName (host : List UInt8) : Bool :=
  match host.getLast? with
  | none => false
  | some last =>
    if host.length < 3 ∨ 253 < host.length ∨ alpha last = false ∨
        localSuffixes.any (hostSuffix host) then false
    else match dnsLabels 0 0 false host with
      | none => false
      | some (label, dot) => dot && decide (label ≠ 0) && decide (last ≠ '-'.toUInt8)

/-- `hex` -/
def hex (c : UInt8) : ℤ :=
  if digit c then c.toNat - '0'.toNat
  else if 'a'.toUInt8 ≤ c ∧ c ≤ 'f'.toUInt8 then c.toNat - 'a'.toNat + 10
  else if 'A'.toUInt8 ≤ c ∧ c ≤ 'F'.toUInt8 then c.toNat - 'A'.toNat + 10
  else -1

/-- `decoded` of `%` and two digits, when it is one the URL may have. -/
def escapeValid (high low : UInt8) : Bool :=
  if hex high < 0 ∨ hex low < 0 then false
  else
    let decoded := hex high * 16 + hex low
    !(decoded ≤ 0x20 || decoded = 0x7f || decoded = '\\'.toNat)

/-- The loop of `llm_endpoint_valid` over what follows the scheme. -/
def endpointChars : List UInt8 → Bool
  | [] => true
  | c :: rest =>
    if c ≤ 0x20 ∨ 0x7f ≤ c ∨ c = '@'.toUInt8 ∨ c = '#'.toUInt8 ∨ c = '?'.toUInt8 ∨
        c = '\\'.toUInt8 then false
    else if c = '%'.toUInt8 then
      match rest with
      | high :: low :: _ => escapeValid high low && endpointChars rest
      | _ => false
    else endpointChars rest

/-- The bytes of the host: up to the first `:` or `/`. -/
def endpointHost (rest : List UInt8) : List UInt8 :=
  rest.takeWhile fun c ↦ c ≠ ':'.toUInt8 && c ≠ '/'.toUInt8

/-- What follows the host: a port, if there is one, and a path that is not empty. -/
def endpointTail (tail : List UInt8) : Bool :=
  if tail.head? = some ':'.toUInt8 then
    match boundedDigits 5 65535 0 0 (tail.drop 1) with
    | none => false
    | some (port, count, path) =>
      if count = 0 ∨ port = 0 then false
      else decide (1 < path.length) && decide (path.head? = some '/'.toUInt8)
  else decide (1 < tail.length) && decide (tail.head? = some '/'.toUInt8)

/-- `"http://"` of an endpoint -/
def endpointHttp : List UInt8 := ascii ['h', 't', 't', 'p', ':', '/', '/']

/-- `"https://"` of an endpoint -/
def endpointHttps : List UInt8 := ascii ['h', 't', 't', 'p', 's', ':', '/', '/']

/-- `secure` -/
def endpointSecure (url : CString) : Bool := url.startsWith endpointHttps

/-- What follows the scheme. -/
def endpointRest (url : CString) : List UInt8 :=
  url.bytes.drop (if endpointSecure url then 8 else 7)

/-- `llm_endpoint_valid` -/
def llmEndpointValid (url : CString) : Bool :=
  if url.boundedStrlen 256 = 256 then false
  else if endpointSecure url = false ∧ url.startsWith endpointHttp = false then false
  else if endpointChars (endpointRest url) = false then false
  else
    let host := endpointHost (endpointRest url)
    let tail := (endpointRest url).drop host.length
    if host = [] ∨ tail = [] then false
    else if (if endpointSecure url then
        match ipv4 host with
        | some ip => !publicIpv4 ip
        | none => !dnsName host
      else
        match ipv4 host with
        | some ip => !privateIpv4 ip
        | none => true) then false
    else endpointTail tail

/-! ### Dotted quads -/

/-- The digits of ASCII. -/
theorem digit_iff {c : UInt8} : digit c = true ↔ 0x30 ≤ c.toNat ∧ c.toNat ≤ 0x39 := by
  rw [digit, Bool.and_eq_true, decide_eq_true_iff, decide_eq_true_iff, UInt8.le_iff_toNat_le,
    UInt8.le_iff_toNat_le]
  rfl

/-- What the loop has read: digits, with their number and their value, both within the bounds. -/
theorem boundedDigits_eq_some {maxCount maxValue value count : ℕ} {text : List UInt8}
    {value' count' : ℕ} {rest : List UInt8}
    (h : boundedDigits maxCount maxValue value count text = some (value', count', rest)) :
    ∃ digits, text = digits ++ rest ∧ (∀ b ∈ digits, 0x30 ≤ b.toNat ∧ b.toNat ≤ 0x39) ∧
      count' = count + digits.length ∧ value' = digitsFrom value digits ∧
      (value ≤ maxValue → value' ≤ maxValue) := by
  induction text generalizing value count with
  | nil =>
    obtain ⟨rfl, hrest⟩ := Prod.mk.inj (Option.some.inj h)
    obtain ⟨rfl, rfl⟩ := Prod.mk.inj hrest
    exact ⟨[], rfl, fun b hb ↦ absurd hb List.not_mem_nil, rfl, rfl, id⟩
  | cons c text ih =>
    rw [boundedDigits] at h
    split at h
    · rename_i hdigit
      split at h
      · cases h
      rename_i hbounds
      obtain ⟨-, hvalue⟩ := not_or.1 hbounds
      obtain ⟨digits, rfl, hdigits, hcount, hread, hle⟩ := ih h
      refine ⟨c :: digits, rfl, fun b hb ↦ ?_, ?_, hread, fun _ ↦ hle (Nat.le_of_not_lt hvalue)⟩
      · rcases List.mem_cons.1 hb with rfl | hb
        · exact digit_iff.1 hdigit
        · exact hdigits b hb
      · rw [hcount, List.length_cons]
        omega
    · obtain ⟨rfl, hrest⟩ := Prod.mk.inj (Option.some.inj h)
      obtain ⟨rfl, rfl⟩ := Prod.mk.inj hrest
      exact ⟨[], rfl, fun b hb ↦ absurd hb List.not_mem_nil, rfl, rfl, id⟩

/-- An octet is a number below 256 without a leading zero. -/
theorem octet_eq_some {host rest : List UInt8} {value : ℕ} (h : octet host = some (value, rest)) :
    value < 256 ∧ host = Rfc8259.decimalText value ++ rest := by
  unfold octet at h
  split at h
  · cases h
  rename_i value count after hdigits
  split at h
  · cases h
  rename_i hguard
  obtain ⟨hcount, hlead⟩ := not_or.1 hguard
  obtain ⟨rfl, rfl⟩ := Prod.mk.inj (Option.some.inj h)
  obtain ⟨digits, rfl, hall, hlength, hvalue, hle⟩ := boundedDigits_eq_some hdigits
  have hlt := hle (Nat.zero_le _)
  refine ⟨by omega, ?_⟩
  rw [← digitsValue] at hvalue
  cases digits with
  | nil => exact absurd hlength (by simpa using hcount)
  | cons first others =>
    have hfirst := hall first List.mem_cons_self
    by_cases hzero : first = 0x30
    · -- A zero is alone.
      subst hzero
      cases others with
      | nil =>
        rw [hvalue]
        rfl
      | cons second others =>
        refine absurd ⟨?_, rfl⟩ hlead
        rw [hlength]
        simp only [List.length_cons]
        omega
    · have hne : first.toNat ≠ 0x30 := fun heq ↦ hzero (UInt8.toNat_inj.1 heq)
      have hothers : ∀ b ∈ others, 0x30 ≤ b.toNat ∧ b.toNat ≤ 0x39 :=
        fun b hb ↦ hall b (List.mem_cons_of_mem _ hb)
      have hlead : 0x31 ≤ first.toNat ∧ first.toNat ≤ 0x39 := ⟨by omega, hfirst.2⟩
      have htext := (Inet.decimalText_digitsValue hlead hothers).2
      rw [hvalue, htext]

/-- What follows a dot. -/
theorem afterDot_eq_some {text rest : List UInt8} (h : afterDot text = some rest) :
    text = Inet.dot :: rest := by
  unfold afterDot at h
  split at h
  · split at h
    · rename_i hdot
      rw [hdot, Option.some.inj h]
      rfl
    · cases h
  · cases h

/-- **`ipv4` accepts dotted quads only.** -/
theorem ipv4_eq_some {host : List UInt8} {a b c d : ℕ} (h : ipv4 host = some (a, b, c, d)) :
    (a < 256 ∧ b < 256 ∧ c < 256 ∧ d < 256) ∧ host = Inet.quad a b c d := by
  unfold ipv4 at h
  simp only [Option.bind_eq_bind, Option.bind_eq_some_iff] at h
  obtain ⟨⟨a', rest₁⟩, h₁, rest₁', hdot₁, ⟨b', rest₂⟩, h₂, rest₂', hdot₂, ⟨c', rest₃⟩, h₃, rest₃',
    hdot₃, ⟨d', rest₄⟩, h₄, h⟩ := h
  dsimp only at h hdot₁ hdot₂ hdot₃
  split at h
  · rename_i hend
    simp only [Option.some.injEq, Prod.mk.injEq] at h
    obtain ⟨rfl, rfl, rfl, rfl⟩ := h
    obtain ⟨ha, rfl⟩ := octet_eq_some h₁
    obtain ⟨hb, rfl⟩ := octet_eq_some h₂
    obtain ⟨hc, rfl⟩ := octet_eq_some h₃
    obtain ⟨hd, rfl⟩ := octet_eq_some h₄
    refine ⟨⟨ha, hb, hc, hd⟩, ?_⟩
    rw [afterDot_eq_some hdot₁, afterDot_eq_some hdot₂, afterDot_eq_some hdot₃, hend,
      List.append_nil]
    simp [Inet.quad, List.intercalate]
  · cases h

/-! ### Public addresses -/

/-- The blocks of addresses that are not public: this network, private, shared, loopback,
link-local, protocol assignments, documentation, benchmarks, multicast and reserved. -/
def specialBlocks : List (ℕ × ℕ) :=
  [(Inet.quadAddress 0 0 0 0, 8), (Inet.quadAddress 10 0 0 0, 8),
    (Inet.quadAddress 172 16 0 0, 12), (Inet.quadAddress 192 168 0 0, 16),
    (Inet.quadAddress 100 64 0 0, 10), (Inet.quadAddress 127 0 0 0, 8),
    (Inet.quadAddress 169 254 0 0, 16), (Inet.quadAddress 192 0 0 0, 24),
    (Inet.quadAddress 192 0 2 0, 24), (Inet.quadAddress 198 51 100 0, 24),
    (Inet.quadAddress 203 0 113 0, 24), (Inet.quadAddress 198 18 0 0, 15),
    (Inet.quadAddress 224 0 0 0, 4), (Inet.quadAddress 240 0 0 0, 4)]

/-- An address of one of them is refused by `public_ipv4`. -/
theorem publicIpv4_of_inBlock {a b c d : ℕ} (hb : b < 256) (hc : c < 256) (hd : d < 256)
    {block : ℕ × ℕ} (hblock : block ∈ specialBlocks)
    (h : Inet.InBlock block.1 block.2 (Inet.quadAddress a b c d)) :
    publicIpv4 (a, b, c, d) = false := by
  simp only [specialBlocks, List.mem_cons, List.not_mem_nil, or_false] at hblock
  unfold Inet.InBlock at h
  unfold publicIpv4 privateIpv4
  rcases hblock with rfl | rfl | rfl | rfl | rfl | rfl | rfl | rfl | rfl | rfl | rfl | rfl | rfl |
    rfl <;> simp only [Inet.quadAddress, Nat.reduceSub, Nat.reducePow] at h
  · have ha : a = 0 := by omega
    simp [ha]
  · have ha : a = 10 := by omega
    simp [ha]
  · have ha : a = 172 ∧ 16 ≤ b ∧ b ≤ 31 := by omega
    simp [ha]
  · have ha : a = 192 ∧ b = 168 := by omega
    simp [ha]
  · have ha : a = 100 ∧ 64 ≤ b ∧ b ≤ 127 := by omega
    simp [ha]
  · have ha : a = 127 := by omega
    simp [ha]
  · have ha : a = 169 ∧ b = 254 := by omega
    simp [ha]
  · have ha : a = 192 ∧ b = 0 ∧ c = 0 := by omega
    simp [ha]
  · have ha : a = 192 ∧ b = 0 ∧ c = 2 := by omega
    simp [ha]
  · have ha : a = 198 ∧ b = 51 ∧ c = 100 := by omega
    simp [ha]
  · have ha : a = 203 ∧ b = 0 ∧ c = 113 := by omega
    simp [ha]
  · obtain ⟨rfl, rfl | rfl⟩ : a = 198 ∧ (b = 18 ∨ b = 19) := by omega
    · simp
    · simp
  · have ha : 224 ≤ a := by omega
    simp [ha]
  · have ha : 224 ≤ a := by omega
    simp [ha]

/-! ### Hosts that are numbers -/

/-- The host of an endpoint. -/
def hostOf (url : CString) : List UInt8 := endpointHost (endpointRest url)

/-- A host that `resolve` reads as an address is spelled as a dotted quad, and over HTTPS it is not
in a block that is not public. -/
def NumericHost (resolve : List UInt8 → Option ℕ) (url : CString) : Prop :=
  ∀ address, resolve (hostOf url) = some address →
    (∃ a b c d, (a < 256 ∧ b < 256 ∧ c < 256 ∧ d < 256) ∧ hostOf url = Inet.quad a b c d) ∧
    (endpointSecure url = true →
      ∀ block ∈ specialBlocks, ¬ Inet.InBlock block.1 block.2 address)

/-- The last byte is a letter. -/
def EndsInLetter (host : List UInt8) : Prop := ∃ last, host.getLast? = some last ∧ alpha last = true

/-- A digit is no letter. -/
theorem alpha_of_digit {c : UInt8} (h : 0x30 ≤ c ∧ c ≤ 0x39) : alpha c = false := by
  revert c
  decide +kernel

/-- A dotted quad ends in a digit. -/
theorem not_endsInLetter_quad {a b c d : ℕ} (hd : d < 256) :
    ¬ EndsInLetter (Inet.quad a b c d) := by
  rintro ⟨last, hlast, halpha⟩
  obtain ⟨digit, hdigit, hrange⟩ := Inet.getLast_quad (a := a) (b := b) (c := c) hd
  obtain rfl := Option.some.inj (hlast.symm.trans hdigit)
  rw [alpha_of_digit hrange] at halpha
  cases halpha

/-- **A name ends in a letter.** -/
theorem endsInLetter_of_dnsName {host : List UInt8} (h : dnsName host = true) :
    EndsInLetter host := by
  unfold dnsName at h
  split at h
  · cases h
  rename_i last hlast
  split at h
  · cases h
  rename_i hguard
  obtain ⟨-, hguard⟩ := not_or.1 hguard
  obtain ⟨-, hguard⟩ := not_or.1 hguard
  obtain ⟨halpha, -⟩ := not_or.1 hguard
  exact ⟨last, hlast, Bool.eq_true_of_not_eq_false halpha⟩

/-- What `llm_endpoint_valid` says of the host: it is a dotted quad, a public one over HTTPS, or it
is the name of a host, over HTTPS only. -/
theorem host_of_llmEndpointValid {url : CString} (h : llmEndpointValid url = true) :
    (∃ a b c d, (a < 256 ∧ b < 256 ∧ c < 256 ∧ d < 256) ∧ hostOf url = Inet.quad a b c d ∧
      (endpointSecure url = true → publicIpv4 (a, b, c, d) = true)) ∨
    (endpointSecure url = true ∧ dnsName (hostOf url) = true) := by
  unfold llmEndpointValid at h
  dsimp only at h
  rw [← hostOf] at h
  split at h
  · cases h
  split at h
  · cases h
  split at h
  · cases h
  split at h
  · cases h
  -- Only HTTPS may have a name; over HTTP it is a quad, and a private one.
  by_cases hsecure : endpointSecure url = true
  · rw [if_pos hsecure] at h
    cases hip : ipv4 (hostOf url) with
    | some ip =>
      obtain ⟨a, b, c, d⟩ := ip
      obtain ⟨hlt, hquad⟩ := ipv4_eq_some hip
      refine .inl ⟨a, b, c, d, hlt, hquad, fun _ ↦ ?_⟩
      rw [hip] at h
      by_contra hno
      rw [Bool.not_eq_true] at hno
      simp [hno] at h
    | none =>
      refine .inr ⟨hsecure, ?_⟩
      rw [hip] at h
      by_contra hno
      rw [Bool.not_eq_true] at hno
      simp [hno] at h
  · rw [if_neg hsecure] at h
    cases hip : ipv4 (hostOf url) with
    | some ip =>
      obtain ⟨a, b, c, d⟩ := ip
      obtain ⟨hlt, hquad⟩ := ipv4_eq_some hip
      exact .inl ⟨a, b, c, d, hlt, hquad, fun hyes ↦ absurd hyes hsecure⟩
    | none =>
      rw [hip] at h
      simp at h

/-- **An accepted endpoint hides no address, unless its host is a number that ends in a letter.**
That is so for every resolver that reads dotted quads, whatever else it reads. -/
theorem numericHost_iff {resolve : List UInt8 → Option ℕ} (hresolve : Inet.ReadsQuads resolve)
    {url : CString} (h : llmEndpointValid url = true) :
    NumericHost resolve url ↔
      ¬ ((resolve (hostOf url)).isSome = true ∧ EndsInLetter (hostOf url)) := by
  constructor
  · rintro hnumeric ⟨hsome, hletter⟩
    obtain ⟨address, haddress⟩ := Option.isSome_iff_exists.1 hsome
    obtain ⟨⟨a, b, c, d, hlt, hquad⟩, -⟩ := hnumeric address haddress
    rw [hquad] at hletter
    exact not_endsInLetter_quad hlt.2.2.2 hletter
  · intro hnot address haddress
    rcases host_of_llmEndpointValid h with ⟨a, b, c, d, hlt, hquad, hpublic⟩ | ⟨-, hname⟩
    · refine ⟨⟨a, b, c, d, hlt, hquad⟩, fun hsecure block hblock hin ↦ ?_⟩
      rw [hquad, hresolve hlt.1 hlt.2.1 hlt.2.2.1 hlt.2.2.2] at haddress
      obtain rfl := Option.some.inj haddress
      have hrefused := publicIpv4_of_inBlock hlt.2.1 hlt.2.2.1 hlt.2.2.2 hblock hin
      rw [hpublic hsecure] at hrefused
      cases hrefused
    · exact absurd ⟨Option.isSome_of_eq_some haddress, endsInLetter_of_dnsName hname⟩ hnot

/-- `https://127.0xa/v1` -/
def disguisedUrl : CString := .ofBytes (ascii ['h', 't', 't', 'p', 's', ':', '/', '/', '1', '2',
  '7', '.', '0', 'x', 'a', '/', 'v', '1'])

/-- A spelling of `127.0.0.10` is accepted as a name. -/
theorem disguisedUrl_accepted : llmEndpointValid disguisedUrl = true ∧
    Inet.aton (hostOf disguisedUrl) = some (Inet.quadAddress 127 0 0 10) ∧
    ¬ NumericHost Inet.aton disguisedUrl := by
  have haton : Inet.aton (hostOf disguisedUrl) = some (Inet.quadAddress 127 0 0 10) := by
    decide +kernel
  refine ⟨by decide +kernel, haton, fun hnumeric ↦ ?_⟩
  have hblock : (Inet.quadAddress 127 0 0 0, 8) ∈ specialBlocks := by decide
  exact (hnumeric _ haton).2 (by decide +kernel) _ hblock (by decide)

/-- `https://8.8.8.8/v1` -/
def publicUrl : CString := .ofBytes (ascii ['h', 't', 't', 'p', 's', ':', '/', '/', '8', '.', '8',
  '.', '8', '.', '8', '/', 'v', '1'])

/-- A public address in dotted form. -/
theorem numericHost_publicUrl : NumericHost Inet.aton publicUrl := by
  have haccepted : llmEndpointValid publicUrl = true := by decide +kernel
  refine (numericHost_iff Inet.aton_quad haccepted).2 ?_
  rintro ⟨-, last, hlast, halpha⟩
  have hdigit : (hostOf publicUrl).getLast? = some 0x38 := by decide +kernel
  obtain rfl := Option.some.inj (hdigit.symm.trans hlast)
  cases halpha

end VibeUsage
