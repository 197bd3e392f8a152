import VibeUsage.Board.Ndef
import VibeUsage.Storage.Nvs

/-!
# Publishing to the tag

`Publish` of `components/board_services/board_nfc_note.cc`. The tag is an EEPROM that a phone can
read at any time, with or without power on the board, so every content it ever has matters: `Tag`
keeps the contents it had before. An exchange on the bus may fail, a write that fails may have been
taken all the same, and one that succeeds may not have been; a block is taken whole or not at all.

A program that loses its power at some point leaves one of the contents it went through, so what is
shown about all of these (`Shown`) is what a reader may find.
-/

namespace VibeUsage

/-- `kBlock` bytes. -/
abbrev Block : Type := Vector UInt8 16

/-- Blocks 01 to 37 of the tag. -/
abbrev UserMemory : Type := Vector Block 55

/-- `kCapacity`. -/
def kCapacity : ℕ := 55 * 16

/-- The bytes a reader goes through. -/
def UserMemory.bytes (memory : UserMemory) : List UInt8 := memory.toList.flatMap (·.toList)

/-- How one exchange goes: what the bus says, whether a phone has its field on the tag, and whether
the tag takes a block that is written. -/
structure NfcExchange where
  error : Option EspErr
  field : Bool
  taken : Bool
deriving DecidableEq

/-- The tag, what it held before, and the exchanges to come. -/
structure Tag where
  memory : UserMemory
  earlier : List UserMemory
  bus : ℕ → NfcExchange
  exchanges : ℕ

namespace Tag

/-- A tag before the first exchange. -/
def start (memory : UserMemory) (bus : ℕ → NfcExchange) : Tag :=
  { memory := memory, earlier := [], bus := bus, exchanges := 0 }

/-- The exchange that comes next. -/
def exchange (tag : Tag) : NfcExchange := tag.bus tag.exchanges

def advance (tag : Tag) : Tag := { tag with exchanges := tag.exchanges + 1 }

/-- The tag takes a block. -/
def take (tag : Tag) (memory : UserMemory) : Tag :=
  { tag with memory := memory, earlier := tag.memory :: tag.earlier }

end Tag

abbrev Nfc (α : Type) : Type := Prog Tag EspErr α

/-- The bus lock and `Initialize`. -/
def nfcInitialize : Nfc Unit := do
  let tag ← Prog.get
  Prog.modify Tag.advance
  if let some error := tag.exchange.error then Prog.fail error
  else if tag.exchange.field then Prog.fail .timeout

/-- `ReadBlock`. -/
def readBlock (address : ℕ) : Nfc Block := do
  let tag ← Prog.get
  if h : 1 ≤ address ∧ address ≤ 0x37 then
    Prog.modify Tag.advance
    if let some error := tag.exchange.error then Prog.fail error
    else pure (tag.memory.get ⟨address - 1, by omega⟩)
  else Prog.fail .invalidArg

/-- `WriteBlock`. -/
def writeBlock (address : ℕ) (data : Block) : Nfc Unit := do
  let tag ← Prog.get
  if h : 1 ≤ address ∧ address ≤ 0x37 then
    Prog.modify Tag.advance
    if tag.exchange.field then Prog.fail .timeout
    else
      Prog.modify fun t ↦
        if tag.exchange.taken then t.take (tag.memory.set (address - 1) data (by omega)) else t
      if let some error := tag.exchange.error then Prog.fail error
  else Prog.fail .invalidArg

/-- `WriteChecked`. -/
def writeChecked (address : ℕ) (data : Block) : Nfc Unit := do
  let actual ← readBlock address
  if actual ≠ data then
    writeBlock address data
    let actual ← readBlock address
    Prog.check (actual = data) .invalidResponse

/-- The `kBlock` bytes of an image at a place. -/
def imageBlock (image : List UInt8) (place : ℕ) : Block :=
  Vector.ofFn fun i ↦ image.getD (place * 16 + i.val) 0

/-- The loop of `Publish`, over the blocks that are left. -/
def writeBlocks (image : List UInt8) : List ℕ → Nfc Unit
  | [] => pure ()
  | block :: blocks => do
    writeChecked block (imageBlock image (block - 1))
    writeBlocks image blocks

/-- `empty`, a message of no bytes. -/
def emptyBlock : Block := imageBlock [3, 0, 0xfe] 0

/-- `image`, with the message in front of zeros. -/
def publishedImage (tlv : List UInt8) : List UInt8 :=
  tlv ++ List.replicate (kCapacity - tlv.length) 0

/-- `Publish`. -/
def nfcPublish (message : List UInt8) : Nfc Unit :=
  match boardNdefType2 message kCapacity with
  | none => Prog.fail .invalidSize
  | some tlv => do
    nfcInitialize
    writeChecked 1 emptyBlock
    writeBlocks (publishedImage tlv) (List.range' 2 54)
    writeChecked 1 (imageBlock (publishedImage tlv) 0)

/-! ### What a reader may find -/

/-- Every content of the tag, now and before, has `S`. -/
def Tag.Shown (S : UserMemory → Prop) (tag : Tag) : Prop := ∀ m ∈ tag.memory :: tag.earlier, S m

/-- The tag holds `m`, and has `S` at any time. -/
def Tag.Holds (S : UserMemory → Prop) (m : UserMemory) (tag : Tag) : Prop :=
  tag.memory = m ∧ tag.Shown S

variable {S : UserMemory → Prop} {m : UserMemory}

/-- An exchange without effect. -/
theorem Tag.Holds.advance {tag : Tag} (h : tag.Holds S m) : tag.advance.Holds S m := h

/-- A block is taken. -/
theorem Tag.Holds.take {tag : Tag} (h : tag.Holds S m) {m' : UserMemory} (hm' : S m') :
    (tag.take m').Holds S m' := by
  refine ⟨rfl, fun n hn ↦ ?_⟩
  rcases List.mem_cons.1 hn with rfl | hn
  · exact hm'
  · exact h.2 n hn

/-- The tag is opened, or that fails. -/
theorem nfcInitialize_spec :
    Prog.Triple (Tag.Holds S m) nfcInitialize (fun _ ↦ Tag.Holds S m) fun _ ↦ Tag.Shown S := by
  refine .get fun tag h ↦ .bind (M := fun _ ↦ Tag.Holds S m) (.modify ?_) fun _ ↦ ?_
  · rintro _ rfl
    exact h.advance
  · split
    · exact fun t ht ↦ ht.2
    · split
      · exact fun t ht ↦ ht.2
      · exact fun t ht ↦ ht

/-- A block that is read is the one the tag holds. -/
theorem readBlock_spec {address : ℕ} (h : 1 ≤ address ∧ address ≤ 0x37) :
    Prog.Triple (Tag.Holds S m) (readBlock address)
      (fun data tag ↦ data = m.get ⟨address - 1, by omega⟩ ∧ tag.Holds S m)
      fun _ ↦ Tag.Shown S := by
  refine .get fun tag htag ↦ ?_
  rw [dif_pos h]
  refine .bind (M := fun _ ↦ Tag.Holds S m) (.modify ?_) fun _ ↦ ?_
  · rintro _ rfl
    exact htag.advance
  · split
    · exact fun t ht ↦ ht.2
    · intro t ht
      exact ⟨by rw [htag.1], ht⟩

/-- A write leaves the block it was given or the one that was there. -/
theorem writeBlock_spec {address : ℕ} (h : 1 ≤ address ∧ address ≤ 0x37) {data : Block}
    (hS : S (m.set (address - 1) data (by omega))) :
    Prog.Triple (Tag.Holds S m) (writeBlock address data)
      (fun _ tag ↦ tag.Holds S m ∨ tag.Holds S (m.set (address - 1) data (by omega)))
      fun _ ↦ Tag.Shown S := by
  refine .get fun tag htag ↦ ?_
  rw [dif_pos h]
  refine .bind (M := fun _ ↦ Tag.Holds S m) (.modify ?_) fun _ ↦ ?_
  · rintro _ rfl
    exact htag.advance
  · split
    · exact fun t ht ↦ ht.2
    · refine .bind (M := fun _ t ↦ t.Holds S m ∨
        t.Holds S (m.set (address - 1) data (by omega))) (.modify ?_) fun _ ↦ ?_
      · intro t ht
        split
        · simp only [htag.1]
          exact .inr (ht.take hS)
        · exact .inl ht
      · have hshown : ∀ t : Tag, t.Holds S m ∨ t.Holds S (m.set (address - 1) data (by omega)) →
            t.Shown S := fun t ht ↦ ht.elim (·.2) (·.2)
        split
        · exact hshown
        · exact fun t ht ↦ ht

/-- A block that is there already changes nothing. -/
theorem UserMemory.set_of_get {m : UserMemory} {place : ℕ} (h : place < 55) {data : Block}
    (hdata : m.get ⟨place, h⟩ = data) : m.set place data h = m := by
  rw [← hdata]
  exact Vector.set_getElem_self h

/-- The block that is read back is the one that is expected, or an error is returned. -/
theorem readBack_spec {address : ℕ} (h : 1 ≤ address ∧ address ≤ 0x37) (data : Block) :
    Prog.Triple (Tag.Holds S m)
      (readBlock address >>= fun actual ↦ Prog.check (actual = data) .invalidResponse)
      (fun _ tag ↦ tag.Holds S (m.set (address - 1) data (by omega))) fun _ ↦ Tag.Shown S := by
  refine .bind (readBlock_spec h) fun actual ↦ .check ?_ ?_
  · rintro rfl tag ⟨hactual, htag⟩
    rwa [UserMemory.set_of_get (by omega) hactual.symm]
  · exact fun _ tag ⟨_, htag⟩ ↦ htag.2

/-- A block that is checked is the one it was given. -/
theorem writeChecked_spec {address : ℕ} (h : 1 ≤ address ∧ address ≤ 0x37) (data : Block)
    (hS : S (m.set (address - 1) data (by omega))) :
    Prog.Triple (Tag.Holds S m) (writeChecked address data)
      (fun _ tag ↦ tag.Holds S (m.set (address - 1) data (by omega))) fun _ ↦ Tag.Shown S := by
  refine .bind (readBlock_spec h) fun actual ↦ ?_
  split
  · refine .bind (M := fun _ t ↦ t.Holds S m ∨
      t.Holds S (m.set (address - 1) data (by omega))) ?_ fun _ ↦ ?_
    · exact (writeBlock_spec h hS).conseq (fun _ ↦ And.right) (fun _ _ ↦ id) fun _ _ ↦ id
    · -- The block read back says which of two contents the tag has.
      have hnew := readBack_spec (S := S) (m := m.set (address - 1) data (by omega)) h data
      rw [Vector.set_set] at hnew
      exact (readBack_spec h data).or hnew
  · rename_i hsame
    rintro tag ⟨hactual, htag⟩
    show tag.Holds S (m.set (address - 1) data (by omega))
    rwa [UserMemory.set_of_get (by omega) (hactual.symm.trans (not_not.1 hsame))]

/-! ### The order of the blocks -/

/-- The blocks of an image. -/
def UserMemory.ofImage (image : List UInt8) : UserMemory :=
  Vector.ofFn fun place ↦ imageBlock image place.val

/-- The first block hides the message, and the places before `n` are those of the image. -/
def UserMemory.Hidden (image : List UInt8) (n : ℕ) (m : UserMemory) : Prop :=
  m.get 0 = emptyBlock ∧ ∀ place : Fin 55, 1 ≤ place.val → place.val < n →
    m.get place = imageBlock image place.val

/-- One block is replaced. -/
theorem UserMemory.get_set (m : UserMemory) {place : ℕ} (h : place < 55) (data : Block)
    (other : Fin 55) :
    Vector.get (m.set place data h) other = if other.val = place then data else m.get other := by
  show (m.set place data h)[other.val] = if other.val = place then data else m[other.val]
  rw [Vector.getElem_set]
  simp only [eq_comm]

/-- A place is filled. -/
theorem UserMemory.Hidden.set {image : List UInt8} {n : ℕ} (h : m.Hidden image n) (hn : 1 ≤ n)
    (hlt : n < 55) : UserMemory.Hidden image (n + 1) (m.set n (imageBlock image n) hlt) := by
  refine ⟨?_, fun place hpos hplace ↦ ?_⟩
  · rw [get_set, if_neg (by simp; omega)]
    exact h.1
  · rw [get_set]
    split
    · rename_i heq
      rw [heq]
    · exact h.2 place hpos (by omega)

/-- The first place is the last. -/
theorem UserMemory.Hidden.commit {image : List UInt8} (h : m.Hidden image 55) :
    m.set 0 (imageBlock image 0) = UserMemory.ofImage image := by
  refine Vector.ext fun i hi ↦ ?_
  have hget := get_set m (by decide : 0 < 55) (imageBlock image 0) ⟨i, hi⟩
  have himage : (ofImage image)[i] = imageBlock image i := Vector.getElem_ofFn hi
  rw [himage]
  refine hget.trans ?_
  split
  · rename_i hzero
    rw [show i = 0 from hzero]
  · rename_i hpos
    exact h.2 ⟨i, hi⟩ (Nat.pos_of_ne_zero hpos) hi

/-- The blocks after the first, from one place to the end. -/
theorem writeBlocks_spec {image : List UInt8} (hS : ∀ m : UserMemory, m.get 0 = emptyBlock → S m)
    (k : ℕ) : ∀ n, 1 ≤ n → n + k = 55 →
      Prog.Triple (fun tag ↦ ∃ m, UserMemory.Hidden image n m ∧ tag.Holds S m)
        (writeBlocks image (List.range' (n + 1) k))
        (fun _ tag ↦ ∃ m, UserMemory.Hidden image 55 m ∧ tag.Holds S m) fun _ ↦ Tag.Shown S := by
  induction k with
  | zero =>
    rintro n - rfl
    exact fun _ ↦ id
  | succ k ih =>
    rintro n hn hsum tag ⟨m, hm, htag⟩
    have hset := hm.set hn (by omega)
    have haddress : 1 ≤ n + 1 ∧ n + 1 ≤ 0x37 := by omega
    have hwrite := writeChecked_spec haddress (imageBlock image n) (hS _ hset.1)
    have hrest := ih (n + 1) (by omega) (by omega)
    refine Prog.Triple.bind hwrite (fun _ ↦ ?_) tag htag
    exact hrest.conseq (fun t ht ↦ ⟨_, hset, ht⟩) (fun _ _ ↦ id) fun _ _ ↦ id

/-! ### What a reader sees -/

/-- A phone reads a message of no bytes. -/
theorem readMessage_of_get_zero (h : m.get 0 = emptyBlock) : Tlv.readMessage m.bytes = some [] := by
  obtain ⟨first, rest, hlist⟩ : ∃ first rest, m.toList = first :: rest := by
    have hlength : m.toList.length = 55 := Vector.length_toList
    exact List.exists_cons_of_length_pos (by rw [hlength]; decide)
  have hfirst : first = emptyBlock := by
    have hzero : m.toList[0]? = some (m.get 0) := by
      rw [Vector.getElem?_toList]
      exact Vector.getElem?_eq_getElem (by decide)
    rw [hlist, h] at hzero
    exact Option.some.inj hzero
  unfold UserMemory.bytes
  have hbytes : emptyBlock.toList = 0x03 :: 0x00 :: 0xfe :: List.replicate 13 0 := by decide
  rw [hlist, List.flatMap_cons, hfirst, hbytes]
  exact Tlv.readMessage_of_readLength (Tlv.readLength_short (by decide) _) (Nat.zero_le _)

/-- The bytes of an image are the image. -/
theorem bytes_ofImage {image : List UInt8} (h : image.length = kCapacity) :
    (UserMemory.ofImage image).bytes = image := by
  have hblocks : (UserMemory.ofImage image).bytes =
      (List.ofFn fun place : Fin 55 ↦ List.ofFn fun i : Fin 16 ↦
        image.getD (place.val * 16 + i.val) 0).flatten := by
    unfold UserMemory.bytes UserMemory.ofImage imageBlock
    rw [Vector.toList_ofFn, List.flatMap_def, List.map_ofFn]
    simp only [Function.comp_def, Vector.toList_ofFn]
  rw [hblocks, ← List.ofFn_mul fun i : Fin (55 * 16) ↦ image.getD i.val 0]
  refine List.ext_getElem ((List.length_ofFn).trans h.symm) fun i hi hi' ↦ ?_
  rw [List.getElem_ofFn]
  exact List.getD_eq_getElem image 0 hi'

/-- An image fills the memory. -/
theorem length_publishedImage {tlv : List UInt8} (h : tlv.length ≤ kCapacity) :
    (publishedImage tlv).length = kCapacity := by
  rw [publishedImage, List.length_append, List.length_replicate]
  omega

/-- A publish that succeeds leaves the image, and everything on the way is allowed by `S`. -/
theorem publish_spec {message tlv : List UInt8} {old : UserMemory}
    (h : boardNdefType2 message kCapacity = some tlv)
    (hempty : ∀ m : UserMemory, m.get 0 = emptyBlock → S m)
    (hnew : S (UserMemory.ofImage (publishedImage tlv))) :
    Prog.Triple (Tag.Holds S old) (nfcPublish message)
      (fun _ ↦ Tag.Holds S (UserMemory.ofImage (publishedImage tlv))) fun _ ↦ Tag.Shown S := by
  have hfirst : Vector.get (old.set 0 emptyBlock) 0 = emptyBlock := by
    rw [UserMemory.get_set]
    exact if_pos rfl
  unfold nfcPublish
  rw [h]
  refine .bind nfcInitialize_spec fun _ ↦ .bind (M := fun _ ↦ Tag.Holds S
    (old.set 0 emptyBlock)) ?_ fun _ ↦ .bind (M := fun _ tag ↦ ∃ m,
      UserMemory.Hidden (publishedImage tlv) 55 m ∧ tag.Holds S m) ?_ fun _ ↦ ?_
  · exact writeChecked_spec (by decide) _ (hempty _ hfirst)
  · have hhidden : UserMemory.Hidden (publishedImage tlv) 1 (old.set 0 emptyBlock) := by
      refine ⟨hfirst, fun place hpos hlt ↦ ?_⟩
      omega
    exact (writeBlocks_spec hempty 54 1 le_rfl rfl).conseq (fun tag htag ↦ ⟨_, hhidden, htag⟩)
      (fun _ _ ↦ id) fun _ _ ↦ id
  · rintro tag ⟨m, hm, htag⟩
    have haddress : 1 ≤ 1 ∧ 1 ≤ 0x37 := by decide
    have hlast := writeChecked_spec haddress (imageBlock (publishedImage tlv) 0)
      (show S (m.set 0 _) by rwa [hm.commit])
    simp only [Nat.sub_self, hm.commit] at hlast
    exact hlast tag htag

/-! ### A bus that works -/

/-- Every exchange to come succeeds, and the tag takes what is written. -/
def Tag.Works (tag : Tag) : Prop := ∀ n, tag.bus n = ⟨none, false, true⟩

/-- On a bus that works the tag is opened. -/
theorem nfcInitialize_of_works {tag : Tag} (h : tag.Works) :
    nfcInitialize tag = (.ok (), tag.advance) := by
  unfold nfcInitialize
  rw [Prog.bind_of_ok (Prog.get_apply tag), Prog.bind_of_ok (Prog.modify_apply Tag.advance tag)]
  unfold Tag.exchange
  rw [h]
  rfl

/-- A block is read. -/
theorem readBlock_of_works {tag : Tag} (h : tag.Works) {address : ℕ}
    (haddress : 1 ≤ address ∧ address ≤ 0x37) :
    readBlock address tag = (.ok (tag.memory.get ⟨address - 1, by omega⟩), tag.advance) := by
  unfold readBlock
  rw [Prog.bind_of_ok (Prog.get_apply tag), dif_pos haddress,
    Prog.bind_of_ok (Prog.modify_apply Tag.advance tag)]
  unfold Tag.exchange
  rw [h]
  rfl

/-- A block is written. -/
theorem writeBlock_of_works {tag : Tag} (h : tag.Works) {address : ℕ}
    (haddress : 1 ≤ address ∧ address ≤ 0x37) (data : Block) :
    writeBlock address data tag =
      (.ok (), tag.advance.take (tag.memory.set (address - 1) data (by omega))) := by
  unfold writeBlock
  rw [Prog.bind_of_ok (Prog.get_apply tag), dif_pos haddress,
    Prog.bind_of_ok (Prog.modify_apply Tag.advance tag)]
  unfold Tag.exchange
  rw [h]
  rfl

/-- A block is written at the first attempt, or is there. -/
theorem writeChecked_of_works {address : ℕ} (haddress : 1 ≤ address ∧ address ≤ 0x37)
    (data : Block) :
    Prog.Triple Tag.Works (writeChecked address data) (fun _ ↦ Tag.Works) fun _ _ ↦ False := by
  intro tag h
  rw [writeChecked, Prog.bind_of_ok (readBlock_of_works h haddress)]
  by_cases hsame : tag.memory.get ⟨address - 1, by omega⟩ = data
  · rw [if_neg (not_not.2 hsame)]
    exact h
  · have hread (other : Tag) (hworks : other.Works)
        (hother : other.memory = tag.memory.set (address - 1) data (by omega)) :
        Prog.Ends (fun _ ↦ Tag.Works) (fun _ _ ↦ False) ((readBlock address >>= fun actual ↦
          Prog.check (actual = data) EspErr.invalidResponse) other) := by
      have hdata : other.memory.get ⟨address - 1, by omega⟩ = data := by
        rw [hother, UserMemory.get_set, if_pos rfl]
      rw [Prog.bind_of_ok (readBlock_of_works hworks haddress), Prog.check_of_pos hdata]
      exact hworks
    have hworks : tag.advance.Works := h
    rw [if_pos hsame, Prog.bind_of_ok (writeBlock_of_works hworks haddress data)]
    exact hread _ h rfl

/-- **The blocks** are written, one after the other. -/
theorem writeBlocks_of_works (image : List UInt8) {blocks : List ℕ}
    (h : ∀ block ∈ blocks, 1 ≤ block ∧ block ≤ 0x37) :
    Prog.Triple Tag.Works (writeBlocks image blocks) (fun _ ↦ Tag.Works) fun _ _ ↦ False := by
  induction blocks with
  | nil => exact fun _ ↦ id
  | cons block blocks ih =>
    exact .bind (writeChecked_of_works (h block List.mem_cons_self) _) fun _ ↦
      ih fun other hother ↦ h other (List.mem_cons_of_mem _ hother)

/-- **A publish succeeds** on a bus that works, for every message that has room on the tag. -/
theorem nfcPublish_of_works {message tlv : List UInt8} (old : UserMemory) {bus : ℕ → NfcExchange}
    (hbus : ∀ n, bus n = ⟨none, false, true⟩) (h : boardNdefType2 message kCapacity = some tlv) :
    (nfcPublish message (.start old bus)).1 = .ok () := by
  have hrun : Prog.Triple Tag.Works (nfcPublish message) (fun _ ↦ Tag.Works) fun _ _ ↦ False := by
    have hblocks : ∀ block ∈ List.range' 2 54, 1 ≤ block ∧ block ≤ 0x37 := by decide
    have hinit : Prog.Triple Tag.Works nfcInitialize (fun _ ↦ Tag.Works) fun _ _ ↦ False := by
      intro tag hworks
      rw [nfcInitialize_of_works hworks]
      exact hworks
    unfold nfcPublish
    rw [h]
    exact .bind hinit fun _ ↦ .bind (writeChecked_of_works (by decide) _) fun _ ↦
      .bind (writeBlocks_of_works _ hblocks) fun _ ↦ writeChecked_of_works (by decide) _
  have hend := hrun (.start old bus) hbus
  rcases hresult : nfcPublish message (.start old bus) with ⟨error | done, tag⟩
  · rw [hresult] at hend
    exact hend.elim
  · rfl

/-- **Publishing is atomic for a reader.** Whatever the tag held, whatever the message and however
the exchanges go, at every moment the tag holds what it held at first, or a reader finds a message
of no bytes, or it finds the new message and all of it; and when `Publish` returns `ESP_OK` every
byte of the tag is a byte of the new image. -/
theorem publish_atomic (message : List UInt8) (old : UserMemory) (bus : ℕ → NfcExchange) :
    (∀ m ∈ (nfcPublish message (.start old bus)).2.memory ::
        (nfcPublish message (.start old bus)).2.earlier,
      m = old ∨ Tlv.readMessage m.bytes = some [] ∨ Tlv.readMessage m.bytes = some message) ∧
    ((nfcPublish message (.start old bus)).1 = .ok () →
      ∃ tlv, boardNdefType2 message kCapacity = some tlv ∧
        (nfcPublish message (.start old bus)).2.memory.bytes = publishedImage tlv ∧
        Tlv.readMessage (publishedImage tlv) = some message) := by
  rcases haccepted : boardNdefType2 message kCapacity with _ | tlv
  · have hrun : nfcPublish message (.start old bus) = (.error .invalidSize, .start old bus) := by
      unfold nfcPublish
      rw [haccepted]
      rfl
    rw [hrun]
    refine ⟨fun m hm ↦ .inl (List.mem_singleton.1 hm), fun hok ↦ by cases hok⟩
  · have hbytes : (UserMemory.ofImage (publishedImage tlv)).bytes = publishedImage tlv :=
      bytes_ofImage (length_publishedImage (length_of_boardNdefType2 haccepted))
    have hread : Tlv.readMessage (publishedImage tlv) = some message :=
      readMessage_of_boardNdefType2 haccepted _
    -- A first byte of zero makes the message empty, and it is written last.
    have hspec := publish_spec (S := fun m ↦ m = old ∨ Tlv.readMessage m.bytes = some [] ∨
        Tlv.readMessage m.bytes = some message) haccepted
      (fun m hm ↦ .inr (.inl (readMessage_of_get_zero hm)))
      (.inr (.inr (by rw [hbytes, hread]))) (.start old bus)
      ⟨rfl, fun m hm ↦ .inl (List.mem_singleton.1 hm)⟩
    rcases hrun : nfcPublish message (.start old bus) with ⟨error | done, tag⟩
    · rw [hrun] at hspec
      exact ⟨hspec, fun hok ↦ by cases hok⟩
    · rw [hrun] at hspec
      refine ⟨hspec.2, fun _ ↦ ⟨tlv, rfl, ?_, hread⟩⟩
      rw [show tag.memory = _ from hspec.1, hbytes]

/-- A message of three bytes, on a tag of zeros and a bus that works. -/
theorem publish_atomic_works :
    (nfcPublish [1, 2, 3] (.start (.replicate 55 (.replicate 16 0))
      fun _ ↦ ⟨none, false, true⟩)).1 = .ok () ∧
    ∃ tlv, boardNdefType2 [1, 2, 3] kCapacity = some tlv ∧
      (nfcPublish [1, 2, 3] (.start (.replicate 55 (.replicate 16 0))
        fun _ ↦ ⟨none, false, true⟩)).2.memory.bytes = publishedImage tlv ∧
      Tlv.readMessage (publishedImage tlv) = some [1, 2, 3] := by
  have haccepted : boardNdefType2 [1, 2, 3] kCapacity = some [3, 3, 1, 2, 3, 0xfe] := by decide
  have hok := nfcPublish_of_works (.replicate 55 (.replicate 16 0)) (fun _ ↦ rfl) haccepted
  exact ⟨hok, (publish_atomic _ _ _).2 hok⟩

end VibeUsage
