import VibeUsage.Board.EpdPolicy
import VibeUsage.Storage.Nvs

/-!
# Committing a frame to the e-paper panel

`VibeNote4App::CommitFrame` of `main/vibe_note4_ui.cc`. The panel cannot be read, so the program
keeps a shadow of it, `previous_`, and a flag that says whether the shadow can be trusted. A call of
the driver that succeeds makes the panel show what it was given; one that fails leaves anything on
the panel (`EpdCalls.left`).

`Epd.Honest` is what every commit keeps. The drawn QR code is compared by a hash of 32 bits, so a
change of the code is noticed exactly when its hash changes.
-/

namespace VibeUsage

def kWidth : UInt16 := 400
def kHeight : UInt16 := 300
def kStride : ℕ := 50

/-- The bytes of a frame, eight pixels each. -/
abbrev EpdFrame : Type := Fin 15000 → UInt8

/-- A frame as the planner reads it. -/
def EpdFrame.at (frame : EpdFrame) (i : ℕ) : UInt8 := if h : i < 15000 then frame ⟨i, h⟩ else 0

/-- `VibeNote4App::Visual`. -/
inductive Visual
  | kOverview
  | kAgents
  | kStatus
  | kTodo
  | kSettings
  | kAbout
  | kLlmConfig
  | kConfirmUnlink
  | kConfirmReset
  | kWifi
  | kLink
  | kConnecting
  | kTime
  | kError
  | kShutdown
  | kAboutQr
deriving DecidableEq

/-- What is to be shown: the canvas, the visual it is of and the text of the QR code drawn on it. -/
structure FrameRequest where
  canvas : EpdFrame
  visual : Visual
  qr : Option (List UInt8)
  forceFull : Bool

/-- `hash` of `DrawQr`. -/
def qrHash (text : List UInt8) : UInt32 :=
  text.foldl (fun hash c ↦ (hash ^^^ c.toUInt32) * 16777619) 2166136261

/-- `qr_drawn_ ? qr_hash_ : 0`. -/
def qrFingerprint : Option (List UInt8) → UInt32
  | none => 0
  | some text => qrHash text

/-- How the calls of the driver go, and what is on the panel after one that fails. -/
structure EpdCalls where
  powerOn : Option EspErr
  refresh : Option EspErr
  powerOff : Option EspErr
  left : EpdFrame

/-- The panel and the members of `VibeNote4App` about it, with the refreshes that were asked of the
driver, the latest first, and what the last successful commit was of. -/
structure Epd where
  panel : EpdFrame
  previous : EpdFrame
  previousValid : Bool
  previousVisual : Visual
  previousQrHash : UInt32
  partialCount : UInt8
  refreshes : List EpdAction
  shown : Option (Visual × Option (List UInt8))

namespace Epd

/-- After the start of the program, with anything on the panel. -/
def init (panel : EpdFrame) : Epd :=
  { panel := panel, previous := fun _ ↦ 0, previousValid := false, previousVisual := .kShutdown,
    previousQrHash := 0, partialCount := 0, refreshes := [], shown := none }

/-- The plan for a frame. -/
def plan (s : Epd) (r : FrameRequest) : Option EpdPlan :=
  let layoutChanged := !s.previousValid || decide (r.visual ≠ s.previousVisual)
  let qrChanged := decide (qrFingerprint r.qr ≠ s.previousQrHash)
  note4EpdPlanRefresh r.canvas.at s.previous.at 15000 kWidth kHeight kStride s.previousValid
    r.forceFull layoutChanged qrChanged s.partialCount

/-- A call of the driver failed. -/
def spoil (s : Epd) (left : EpdFrame) : Epd := { s with panel := left, previousValid := false }

/-- `dirty_`, filled row by row. -/
def dirty (canvas : EpdFrame) (plan : EpdPlan) (i : ℕ) : UInt8 :=
  canvas.at ((plan.y.toNat + i / plan.rowBytes) * kStride + plan.x.toNat / 8 + i % plan.rowBytes)

/-- What a rectangle of new pixels makes of the panel. -/
def drawRect (plan : EpdPlan) (pixels : ℕ → UInt8) (panel : EpdFrame) : EpdFrame := fun i ↦
  let row := i.val / kStride
  let byte := i.val % kStride
  if plan.y.toNat ≤ row ∧ row < plan.y.toNat + plan.height.toNat ∧ plan.x.toNat ≤ 8 * byte ∧
      8 * byte < plan.x.toNat + plan.width.toNat then
    pixels ((row - plan.y.toNat) * ((plan.width.toNat + 7) / 8) + (byte - plan.x.toNat / 8))
  else panel i

/-- What the panel shows after the refresh of a plan. -/
def refreshed (s : Epd) (r : FrameRequest) (plan : EpdPlan) : EpdFrame :=
  if plan.action = .full then r.canvas else drawRect plan (dirty r.canvas plan) s.panel

/-- The end of `CommitFrame`, after a refresh that succeeded. -/
def commit (s : Epd) (r : FrameRequest) (plan : EpdPlan) : Epd :=
  { s with
    panel := s.refreshed r plan
    previous := r.canvas
    previousValid := true
    previousVisual := r.visual
    previousQrHash := qrFingerprint r.qr
    partialCount := if plan.action = .full then 0 else s.partialCount + 1
    shown := some (r.visual, r.qr) }

/-- `CommitFrame`; none is `ESP_OK`. -/
def commitFrame (r : FrameRequest) (calls : EpdCalls) (s : Epd) : Option EspErr × Epd :=
  match s.plan r with
  | none => (some .invalidArg, { s with previousValid := false })
  | some plan =>
    if plan.action = .skip then (none, { s with shown := some (r.visual, r.qr) })
    else
      match calls.powerOn with
      | some error => (some error, s.spoil calls.left)
      | none =>
        let s := { s with refreshes := plan.action :: s.refreshes }
        match calls.refresh <|> calls.powerOff with
        | some error => (some error, s.spoil calls.left)
        | none => (none, s.commit r plan)

/-- What the program does to these members: a commit, or distrust of the shadow. -/
inductive Event
  | commit (r : FrameRequest) (calls : EpdCalls)
  | invalidate

def step (s : Epd) : Event → Epd
  | .commit r calls => (commitFrame r calls s).2
  | .invalidate => { s with previousValid := false }

def run (s : Epd) (events : List Event) : Epd := events.foldl step s

/-! ### The plan for this panel -/

/-- What the comparison of a frame with the shadow finds. -/
def scan (s : Epd) (r : FrameRequest) : Scan :=
  Scan.run (bytesDiffer r.canvas.at s.previous.at kStride) 300 50

/-- `semantic_full`. -/
def semanticFull (s : Epd) (r : FrameRequest) : Bool :=
  r.forceFull || !s.previousValid || (!s.previousValid || decide (r.visual ≠ s.previousVisual)) ||
    decide (qrFingerprint r.qr ≠ s.previousQrHash)

/-- Two frames differ at a byte. -/
theorem differs_iff (s : Epd) (r : FrameRequest) {y byte : ℕ} (hy : y < 300) (hb : byte < 50) :
    bytesDiffer r.canvas.at s.previous.at kStride y byte = true ↔
      r.canvas ⟨y * 50 + byte, by omega⟩ ≠ s.previous ⟨y * 50 + byte, by omega⟩ := by
  have hindex : sizeT (sizeT (y * kStride) + byte) = y * 50 + byte := by
    unfold sizeT kStride
    omega
  unfold bytesDiffer
  rw [hindex, decide_eq_true_iff]
  unfold EpdFrame.at
  rw [dif_pos (by omega), dif_pos (by omega)]

/-- The place of a byte in its frame. -/
theorem mem_differing_iff (s : Epd) (r : FrameRequest) (i : Fin 15000) :
    (i.val / 50, i.val % 50) ∈
      Scan.differing (bytesDiffer r.canvas.at s.previous.at kStride) 300 50 ↔
    r.canvas i ≠ s.previous i := by
  have hrow : i.val / 50 < 300 := by omega
  have hbyte : i.val % 50 < 50 := by omega
  rw [Scan.mem_differing, differs_iff s r hrow hbyte]
  have hi : (⟨i.val / 50 * 50 + i.val % 50, by omega⟩ : Fin 15000) = i := by
    apply Fin.ext
    show i.val / 50 * 50 + i.val % 50 = i.val
    omega
  rw [hi]
  simp [hrow, hbyte]

/-- The scan has found every place. -/
theorem bounds_scan (s : Epd) (r : FrameRequest) :
    (s.scan r).Bounds (Scan.differing (bytesDiffer r.canvas.at s.previous.at kStride) 300 50) :=
  Scan.bounds_run _ 300 50

/-- The rectangle lies in the frame. -/
theorem scan_lt {s : Epd} {r : FrameRequest} (h : (s.scan r).changed = true) :
    (s.scan r).minByte ≤ (s.scan r).maxByte ∧ (s.scan r).maxByte < 50 ∧
      (s.scan r).minY ≤ (s.scan r).maxY ∧ (s.scan r).maxY < 300 := by
  have hbounds := s.bounds_scan r
  have hne := hbounds.changed.1 h
  obtain ⟨⟨p, hp, hpb⟩, -⟩ := hbounds.maxByte hne
  obtain ⟨⟨q, hq, hqy⟩, -⟩ := hbounds.maxY hne
  have hpmem := Scan.mem_differing.1 hp
  have hqmem := Scan.mem_differing.1 hq
  have hpmin := (hbounds.minByte hne).2 p hp
  have hqmin := (hbounds.minY hne).2 q hq
  omega

/-- **The plan.** -/
theorem plan_eq (s : Epd) (r : FrameRequest) :
    s.plan r = some
      (if (s.scan r).changed = false then
        if s.semanticFull r then ⟨.full, 0, 0, kWidth, kHeight, 50, 120000⟩
        else ⟨.skip, 0, 0, 0, 0, 0, 0⟩
      else
        ⟨if s.semanticFull r || decide (10 ≤ s.partialCount) ||
            decide (120000 < 8 * ((s.scan r).maxByte - (s.scan r).minByte + 1) *
              ((s.scan r).maxY - (s.scan r).minY + 1) * 2) then .full else .partialRefresh,
          UInt16.ofNat (8 * (s.scan r).minByte), UInt16.ofNat (s.scan r).minY,
          UInt16.ofNat (8 * ((s.scan r).maxByte - (s.scan r).minByte + 1)),
          UInt16.ofNat ((s.scan r).maxY - (s.scan r).minY + 1),
          (s.scan r).maxByte - (s.scan r).minByte + 1,
          UInt32.ofNat (8 * ((s.scan r).maxByte - (s.scan r).minByte + 1) *
            ((s.scan r).maxY - (s.scan r).minY + 1))⟩) := by
  have hvisible : sizeT (kWidth.toNat + 7) / 8 = 50 := by decide
  have hwidth : kWidth.toNat = 400 := rfl
  have hheight : kHeight.toNat = 300 := rfl
  unfold plan note4EpdPlanRefresh
  rw [if_neg (by decide), hvisible, hwidth, hheight, if_neg (by decide), if_neg (by decide)]
  have hscan : Scan.run (bytesDiffer r.canvas.at s.previous.at kStride) 300 50 = s.scan r := rfl
  have hsemantic : (r.forceFull || !s.previousValid ||
      (!s.previousValid || decide (r.visual ≠ s.previousVisual)) ||
      decide (qrFingerprint r.qr ≠ s.previousQrHash)) = s.semanticFull r := rfl
  dsimp only
  rw [hscan, hsemantic]
  by_cases hchanged : (s.scan r).changed = false
  · rw [if_pos hchanged, if_pos hchanged]
    split
    · rfl
    · rfl
  · obtain ⟨hb, hb', hy, hy'⟩ := scan_lt (Bool.eq_true_of_not_eq_false hchanged)
    -- The values that the source computes in `size_t`, and that fit their fields.
    have hleft : sizeT ((s.scan r).minByte * 8) = 8 * (s.scan r).minByte := by
      unfold sizeT
      omega
    have hright : min (sizeT (sizeT ((s.scan r).maxByte + 1) * 8)) 400 =
        8 * ((s.scan r).maxByte + 1) := by
      unfold sizeT
      omega
    have hrectWidth : sizeT (8 * ((s.scan r).maxByte + 1) + 2 ^ 32 - 8 * (s.scan r).minByte) =
        8 * ((s.scan r).maxByte - (s.scan r).minByte + 1) := by
      unfold sizeT
      omega
    have hrectHeight : sizeT ((s.scan r).maxY + 2 ^ 32 - (s.scan r).minY + 1) =
        (s.scan r).maxY - (s.scan r).minY + 1 := by
      unfold sizeT
      omega
    have hrowBytes : sizeT ((s.scan r).maxByte + 2 ^ 32 - (s.scan r).minByte + 1) =
        (s.scan r).maxByte - (s.scan r).minByte + 1 := by
      unfold sizeT
      omega
    have harea : 8 * ((s.scan r).maxByte - (s.scan r).minByte + 1) *
        ((s.scan r).maxY - (s.scan r).minY + 1) ≤ 400 * 300 :=
      Nat.mul_le_mul (by omega) (by omega)
    rw [if_neg hchanged, if_neg hchanged, hleft, hright, hrectWidth, hrectHeight, hrowBytes]
    generalize 8 * ((s.scan r).maxByte - (s.scan r).minByte + 1) *
      ((s.scan r).maxY - (s.scan r).minY + 1) = area at harea
    have hsize : sizeT area = area := by
      unfold sizeT
      omega
    have htwice : area * 2 % 2 ^ 64 = area * 2 := by omega
    have hfits : ¬ (UINT16_MAX < 8 * (s.scan r).minByte ∨
        UINT16_MAX < 8 * ((s.scan r).maxByte - (s.scan r).minByte + 1) ∨
        UINT16_MAX < (s.scan r).maxY - (s.scan r).minY + 1 ∨ UINT32_MAX < area) := by
      unfold UINT16_MAX UINT32_MAX
      omega
    rw [hsize, htwice, if_neg hfits]
    rfl

/-- A reason to refresh everything is enough. -/
theorem action_of_semanticFull {s : Epd} {r : FrameRequest} {plan : EpdPlan}
    (h : s.plan r = some plan) (hfull : s.semanticFull r = true) : plan.action = .full := by
  rw [plan_eq, hfull] at h
  obtain rfl := Option.some.inj h
  split
  · rfl
  · simp

/-- Nothing is refreshed when nothing has changed. -/
theorem eq_of_action_skip {s : Epd} {r : FrameRequest} {plan : EpdPlan}
    (h : s.plan r = some plan) (hskip : plan.action = .skip) :
    s.semanticFull r = false ∧ r.canvas = s.previous := by
  rw [plan_eq] at h
  obtain rfl := Option.some.inj h
  by_cases hchanged : (s.scan r).changed = false
  · rw [if_pos hchanged] at hskip
    constructor
    · by_contra hfull
      rw [if_pos (Bool.eq_true_of_not_eq_false hfull)] at hskip
      cases hskip
    · funext i
      by_contra hne
      have hmem := (s.mem_differing_iff r i).2 hne
      have := (s.bounds_scan r).changed.2 (List.ne_nil_of_mem hmem)
      rw [hchanged] at this
      cases this
  · rw [if_neg hchanged] at hskip
    simp only at hskip
    split at hskip <;> cases hskip

/-- A place of the rectangle gets the byte of the canvas. -/
theorem dirty_at {canvas : EpdFrame} {plan : EpdPlan} {i : Fin 15000} {x y n : ℕ}
    (hx : plan.x.toNat = 8 * x) (hy : plan.y.toNat = y) (hn : plan.rowBytes = n)
    (hrow : y ≤ i.val / 50) (hbyte : x ≤ i.val % 50) (hbyte' : i.val % 50 < x + n) :
    dirty canvas plan ((i.val / 50 - y) * n + (i.val % 50 - x)) = canvas i := by
  have hlt : i.val % 50 - x < n := by omega
  have hdiv : ((i.val / 50 - y) * n + (i.val % 50 - x)) / n = i.val / 50 - y := by
    rw [Nat.mul_comm, Nat.mul_add_div (by omega), Nat.div_eq_of_lt hlt, Nat.add_zero]
  have hmod : ((i.val / 50 - y) * n + (i.val % 50 - x)) % n = i.val % 50 - x := by
    rw [Nat.mul_comm, Nat.mul_add_mod, Nat.mod_eq_of_lt hlt]
  have hindex : (y + (i.val / 50 - y)) * kStride + 8 * x / 8 + (i.val % 50 - x) = i.val := by
    unfold kStride
    omega
  unfold dirty
  rw [hx, hy, hn, hdiv, hmod, hindex]
  exact dif_pos i.isLt

/-- When a part is refreshed there is no reason to refresh everything, and the part holds all that
has changed. -/
theorem eq_of_action_part {s : Epd} {r : FrameRequest} {plan : EpdPlan}
    (h : s.plan r = some plan) (hpart : plan.action = .partialRefresh) :
    s.semanticFull r = false ∧ s.partialCount < 10 ∧
      (∀ panel, panel = s.previous → drawRect plan (dirty r.canvas plan) panel = r.canvas) := by
  rw [plan_eq] at h
  obtain rfl := Option.some.inj h
  by_cases hchanged : (s.scan r).changed = false
  · rw [if_pos hchanged] at hpart
    split at hpart <;> cases hpart
  · have hscan := Bool.eq_true_of_not_eq_false hchanged
    obtain ⟨hb, hb', hy, hy'⟩ := scan_lt hscan
    rw [if_neg hchanged] at hpart ⊢
    simp only [ite_eq_right_iff, reduceCtorEq, imp_false, Bool.or_eq_true, decide_eq_true_iff,
      not_or, Bool.not_eq_true] at hpart
    refine ⟨hpart.1.1, UInt8.not_le.1 hpart.1.2, ?_⟩
    rintro _ rfl
    -- The panel is small enough for 16 bits.
    have hx : (UInt16.ofNat (8 * (s.scan r).minByte)).toNat = 8 * (s.scan r).minByte := by
      rw [UInt16.toNat_ofNat']
      omega
    have hy0 : (UInt16.ofNat (s.scan r).minY).toNat = (s.scan r).minY := by
      rw [UInt16.toNat_ofNat']
      omega
    have hwidth : (UInt16.ofNat (8 * ((s.scan r).maxByte - (s.scan r).minByte + 1))).toNat =
        8 * ((s.scan r).maxByte - (s.scan r).minByte + 1) := by
      rw [UInt16.toNat_ofNat']
      omega
    have hheight : (UInt16.ofNat ((s.scan r).maxY - (s.scan r).minY + 1)).toNat =
        (s.scan r).maxY - (s.scan r).minY + 1 := by
      rw [UInt16.toNat_ofNat']
      omega
    funext i
    unfold drawRect
    simp only [hx, hy0, hwidth, hheight]
    split
    · rename_i hin
      unfold kStride at hin
      have hbytes : (8 * ((s.scan r).maxByte - (s.scan r).minByte + 1) + 7) / 8 =
          (s.scan r).maxByte - (s.scan r).minByte + 1 := by omega
      have hleft : 8 * (s.scan r).minByte / 8 = (s.scan r).minByte := by omega
      rw [hbytes, hleft]
      exact dirty_at hx hy0 rfl hin.1 (by omega) (by omega)
    -- A byte outside of the rectangle is one that did not change.
    · rename_i hout
      by_contra hne
      have hmem := (s.mem_differing_iff r i).2 (Ne.symm hne)
      have hbounds := s.bounds_scan r
      have hplaces := List.ne_nil_of_mem hmem
      have h1 := (hbounds.minByte hplaces).2 _ hmem
      have h2 := (hbounds.maxByte hplaces).2 _ hmem
      have h3 := (hbounds.minY hplaces).2 _ hmem
      have h4 := (hbounds.maxY hplaces).2 _ hmem
      unfold kStride at hout
      simp only [ge_iff_le] at h1 h2 h3 h4
      omega

/-! ### What every commit keeps -/

/-- The partial refreshes since the last full one. -/
def partials (s : Epd) : ℕ := (s.refreshes.takeWhile fun a ↦ decide (a = .partialRefresh)).length

/-- A shadow that is trusted is the panel, and the members beside it say what it is of. -/
structure Honest (s : Epd) : Prop where
  shadow : s.previousValid = true → s.panel = s.previous
  count : s.previousValid = true → s.partials = s.partialCount.toNat
  few : s.partials ≤ 10
  shown : s.previousValid = true → ∃ visual qr, s.shown = some (visual, qr) ∧
    s.previousVisual = visual ∧ s.previousQrHash = qrFingerprint qr

/-- At first the shadow is not trusted. -/
theorem honest_init (panel : EpdFrame) : (init panel).Honest := by
  constructor <;> simp [init, partials]

/-- **A failed call** takes the trust away. -/
theorem Honest.spoil {s : Epd} (h : s.Honest) (left : EpdFrame) : (s.spoil left).Honest where
  shadow := fun hvalid ↦ by cases hvalid
  count := fun hvalid ↦ by cases hvalid
  few := h.few
  shown := fun hvalid ↦ by cases hvalid

/-- **The ways a commit ends**: nothing to do, a call that failed, or a refresh that was done. -/
theorem commitFrame_cases (r : FrameRequest) (calls : EpdCalls) (s : Epd) :
    ∃ plan, s.plan r = some plan ∧
      ((plan.action = .skip ∧
          commitFrame r calls s = (none, { s with shown := some (r.visual, r.qr) })) ∨
        plan.action ≠ .skip ∧ ((∃ error, commitFrame r calls s = (some error, s.spoil calls.left)) ∨
          (∃ error, commitFrame r calls s =
            (some error, { s with refreshes := plan.action :: s.refreshes }.spoil calls.left)) ∨
          commitFrame r calls s =
            (none, { s with refreshes := plan.action :: s.refreshes }.commit r plan))) := by
  refine ⟨_, plan_eq s r, ?_⟩
  generalize hplan : (if (s.scan r).changed = false then _ else _ : EpdPlan) = plan
  have hsome : s.plan r = some plan := by rw [plan_eq, hplan]
  unfold commitFrame
  rw [hsome]
  dsimp only
  by_cases hskip : plan.action = .skip
  · rw [if_pos hskip]
    exact .inl ⟨hskip, rfl⟩
  · rw [if_neg hskip]
    refine .inr ⟨hskip, ?_⟩
    cases calls.powerOn with
    | some error => exact .inl ⟨error, rfl⟩
    | none =>
      cases hrest : calls.refresh <|> calls.powerOff with
      | some error => exact .inr (.inl ⟨error, rfl⟩)
      | none => exact .inr (.inr rfl)

/-- A shadow that is not trusted means a full refresh. -/
theorem semanticFull_of_not_previousValid {s : Epd} (r : FrameRequest)
    (h : s.previousValid = false) : s.semanticFull r = true := by
  simp [semanticFull, h]

/-- What is asked of the driver is counted. -/
theorem partials_cons {s : Epd} (h : s.Honest) {r : FrameRequest} {plan : EpdPlan}
    (hplan : s.plan r = some plan) (hskip : plan.action ≠ .skip) :
    (plan.action = .full ∧ { s with refreshes := plan.action :: s.refreshes }.partials = 0) ∨
      plan.action = .partialRefresh ∧ s.previousValid = true ∧ s.partialCount < 10 ∧
      { s with refreshes := plan.action :: s.refreshes }.partials = s.partialCount.toNat + 1 := by
  cases haction : plan.action with
  | skip => exact absurd haction hskip
  | full => exact .inl ⟨rfl, rfl⟩
  | partialRefresh =>
    obtain ⟨hsemantic, hcount, -⟩ := eq_of_action_part hplan haction
    have hvalid : s.previousValid = true := by
      by_contra hinvalid
      have := semanticFull_of_not_previousValid r (Bool.eq_false_of_not_eq_true hinvalid)
      rw [hsemantic] at this
      cases this
    refine .inr ⟨rfl, hvalid, hcount, ?_⟩
    rw [← h.count hvalid]
    rfl

/-- The panel shows the canvas when the refresh was done. -/
theorem refreshed_eq {s : Epd} (h : s.Honest) {r : FrameRequest} {plan : EpdPlan}
    (hplan : s.plan r = some plan) (hskip : plan.action ≠ .skip) : s.refreshed r plan =
      r.canvas := by
  unfold refreshed
  rcases partials_cons h hplan hskip with ⟨hfull, -⟩ | ⟨hpart, hvalid, -, -⟩
  · rw [if_pos hfull]
  · rw [if_neg (by rw [hpart]; decide)]
    exact (eq_of_action_part hplan hpart).2.2 _ (h.shadow hvalid)

/-- A commit of a plan. -/
theorem Honest.commit {s : Epd} (h : s.Honest) {r : FrameRequest} {plan : EpdPlan}
    (hplan : s.plan r = some plan) (hskip : plan.action ≠ .skip) :
    ({ s with refreshes := plan.action :: s.refreshes }.commit r plan).Honest where
  shadow := fun _ ↦ refreshed_eq h hplan hskip
  count := by
    intro _
    rcases partials_cons h hplan hskip with ⟨hfull, hzero⟩ | ⟨hpart, -, hcount, hnext⟩
    · refine hzero.trans ?_
      show 0 = (if plan.action = .full then 0 else s.partialCount + 1 : UInt8).toNat
      rw [if_pos hfull]
      rfl
    · refine hnext.trans ?_
      show _ = (if plan.action = .full then 0 else s.partialCount + 1 : UInt8).toNat
      rw [if_neg (by rw [hpart]; decide), UInt8.toNat_add]
      have hlt : s.partialCount.toNat < 10 := UInt8.lt_iff_toNat_lt.1 hcount
      simp only [UInt8.reduceToNat]
      omega
  few := by
    rcases partials_cons h hplan hskip with ⟨-, hzero⟩ | ⟨-, -, hcount, hnext⟩
    · exact hzero.le.trans (Nat.zero_le _)
    · have hlt : s.partialCount.toNat < 10 := UInt8.lt_iff_toNat_lt.1 hcount
      exact hnext.le.trans hlt
  shown := fun _ ↦ ⟨r.visual, r.qr, rfl, rfl, rfl⟩

/-- **A commit keeps the shadow honest**, and the panel shows the canvas after one that succeeds. -/
theorem Honest.commitFrame {s : Epd} (h : s.Honest) (r : FrameRequest) (calls : EpdCalls) :
    (commitFrame r calls s).2.Honest ∧
      ((Epd.commitFrame r calls s).1 = none → (Epd.commitFrame r calls s).2.panel = r.canvas) := by
  obtain ⟨plan, hplan, ⟨hskip, hrun⟩ | ⟨hskip, ⟨error, hrun⟩ | ⟨error, hrun⟩ | hrun⟩⟩ :=
    commitFrame_cases r calls s
  · obtain ⟨hsemantic, hcanvas⟩ := eq_of_action_skip hplan hskip
    have hsame : s.previousValid = true ∧ s.previousVisual = r.visual ∧
        s.previousQrHash = qrFingerprint r.qr := by
      unfold semanticFull at hsemantic
      simp only [Bool.or_eq_false_iff, Bool.not_eq_false', decide_eq_false_iff_not, not_not]
        at hsemantic
      exact ⟨hsemantic.1.1.2, hsemantic.1.2.2.symm, hsemantic.2.symm⟩
    rw [hrun]
    exact ⟨{ shadow := h.shadow, count := h.count, few := h.few
             shown := fun _ ↦ ⟨r.visual, r.qr, rfl, hsame.2⟩ },
      fun _ ↦ (h.shadow hsame.1).trans hcanvas.symm⟩
  · rw [hrun]
    exact ⟨h.spoil _, fun hok ↦ by cases hok⟩
  · rw [hrun]
    have hcommit := (h.commit hplan hskip).few
    exact ⟨{ shadow := fun hvalid ↦ by cases hvalid
             count := fun hvalid ↦ by cases hvalid
             few := hcommit
             shown := fun hvalid ↦ by cases hvalid }, fun hok ↦ by cases hok⟩
  · rw [hrun]
    exact ⟨h.commit hplan hskip, fun _ ↦ refreshed_eq h hplan hskip⟩

/-- **Every event** keeps the shadow honest. -/
theorem Honest.step {s : Epd} (h : s.Honest) (event : Event) : (s.step event).Honest := by
  cases event with
  | commit r calls => exact (h.commitFrame r calls).1
  | invalidate => exact h.spoil s.panel

/-- So does a run of events. -/
theorem Honest.run {s : Epd} (h : s.Honest) (events : List Event) : (s.run events).Honest := by
  induction events generalizing s with
  | nil => exact h
  | cons event events ih => exact ih (h.step event)

/-- A change of the visual or of the code's hash is a reason to refresh everything. -/
theorem Honest.semanticFull {s : Epd} (h : s.Honest) {r : FrameRequest} {visual : Visual}
    {qr : Option (List UInt8)} (hshown : s.shown = some (visual, qr))
    (hchange : r.visual ≠ visual ∨ qrFingerprint r.qr ≠ qrFingerprint qr) :
    s.semanticFull r = true := by
  by_cases hvalid : s.previousValid = true
  · obtain ⟨visual', qr', hshown', hvisual, hhash⟩ := h.shown hvalid
    obtain ⟨rfl, rfl⟩ := Prod.mk.inj (Option.some.inj (hshown.symm.trans hshown'))
    unfold Epd.semanticFull
    rw [hvisual, hhash]
    rcases hchange with hchange | hchange <;> simp [hchange]
  · exact semanticFull_of_not_previousValid r (Bool.eq_false_of_not_eq_true hvalid)

end Epd

/-- **The shadow stays honest.** Whatever is on the panel at first and whatever is committed,
however the calls of the driver go: a commit that succeeds leaves the canvas on the panel; a shadow
that is trusted is what the panel shows; when the visual or the hash of the drawn code is not that
of the last successful commit the whole panel is refreshed; and at most ten partial refreshes have
been asked for since the last full one. -/
theorem commitFrame_honest (panel : EpdFrame) (events : List Epd.Event) :
    (∀ r calls, (Epd.commitFrame r calls ((Epd.init panel).run events)).1 = none →
      (Epd.commitFrame r calls ((Epd.init panel).run events)).2.panel = r.canvas) ∧
    (((Epd.init panel).run events).previousValid = true →
      ((Epd.init panel).run events).panel = ((Epd.init panel).run events).previous) ∧
    (∀ r visual qr, ((Epd.init panel).run events).shown = some (visual, qr) →
      r.visual ≠ visual ∨ qrFingerprint r.qr ≠ qrFingerprint qr →
      ∃ plan, ((Epd.init panel).run events).plan r = some plan ∧ plan.action = .full) ∧
    ((Epd.init panel).run events).partials ≤ 10 := by
  have h : ((Epd.init panel).run events).Honest := (Epd.honest_init panel).run events
  refine ⟨fun r calls ↦ (h.commitFrame r calls).2, h.shadow, ?_, h.few⟩
  intro r visual qr hshown hchange
  have hplan := Epd.plan_eq ((Epd.init panel).run events) r
  exact ⟨_, hplan, Epd.action_of_semanticFull hplan (h.semanticFull hshown hchange)⟩

/-! ### Two codes with one hash -/

/-- A commit is one of the events. -/
theorem Epd.step_commit (s : Epd) (r : FrameRequest) (calls : EpdCalls) :
    s.step (.commit r calls) = (Epd.commitFrame r calls s).2 := rfl

/-- A full refresh shows the canvas. -/
theorem Epd.commitFrame_of_full {s : Epd} {r : FrameRequest} {plan : EpdPlan}
    (hplan : s.plan r = some plan) (hfull : plan.action = .full) (left : EpdFrame) :
    Epd.commitFrame r ⟨none, none, none, left⟩ s =
      (none, { s with refreshes := plan.action :: s.refreshes }.commit r plan) := by
  unfold Epd.commitFrame
  rw [hplan]
  dsimp only
  rw [if_neg (by rw [hfull]; decide)]
  rfl

def whiteFrame : EpdFrame := fun _ ↦ 0xFF

/-- One pixel of the first byte is black. -/
def dottedFrame : EpdFrame := fun i ↦ if i.val = 0 then 0x7F else 0xFF

/-- `costarring` and `liquid`. -/
def collidingTexts : List UInt8 × List UInt8 :=
  ([0x63, 0x6F, 0x73, 0x74, 0x61, 0x72, 0x72, 0x69, 0x6E, 0x67],
    [0x6C, 0x69, 0x71, 0x75, 0x69, 0x64])

/-- A panel that shows the first of the two. -/
def collidingEpd : Epd :=
  (Epd.init whiteFrame).run
    [.commit ⟨whiteFrame, .kAboutQr, some collidingTexts.1, false⟩ ⟨none, none, none, whiteFrame⟩]

/-- The state of the sample, after its first commit. -/
theorem collidingEpd_eq : ∃ plan : EpdPlan, plan.action = .full ∧ collidingEpd =
    { Epd.init whiteFrame with refreshes := [plan.action] }.commit
      ⟨whiteFrame, .kAboutQr, some collidingTexts.1, false⟩ plan := by
  obtain ⟨plan, hplan⟩ : ∃ plan, (Epd.init whiteFrame).plan
      ⟨whiteFrame, .kAboutQr, some collidingTexts.1, false⟩ = some plan := ⟨_, Epd.plan_eq _ _⟩
  have hfull := Epd.action_of_semanticFull hplan (Epd.semanticFull_of_not_previousValid _ rfl)
  have hrun := Epd.commitFrame_of_full hplan hfull whiteFrame
  refine ⟨plan, hfull, ?_⟩
  unfold collidingEpd Epd.run
  rw [List.foldl_cons, List.foldl_nil, Epd.step_commit, hrun]
  rfl

/-- Only the first byte of the dotted frame differs. -/
theorem scan_collidingEpd {r : FrameRequest} (hcanvas : r.canvas = dottedFrame) :
    (collidingEpd.scan r).changed = true ∧ (collidingEpd.scan r).minByte = 0 ∧
      (collidingEpd.scan r).maxByte = 0 ∧ (collidingEpd.scan r).minY = 0 ∧
      (collidingEpd.scan r).maxY = 0 := by
  have hprevious : collidingEpd.previous = whiteFrame := by
    obtain ⟨plan, -, heq⟩ := collidingEpd_eq
    rw [heq]
    rfl
  have hbounds := collidingEpd.bounds_scan r
  -- Both frames are white everywhere else.
  have hfirst : ∀ p ∈ Scan.differing
      (bytesDiffer r.canvas.at collidingEpd.previous.at kStride) 300 50, p = (0, 0) := by
    rintro ⟨y, byte⟩ hp
    obtain ⟨hy, hb, hdiffers⟩ := Scan.mem_differing.1 hp
    rw [Epd.differs_iff _ _ hy hb, hprevious, hcanvas] at hdiffers
    have hzero : y * 50 + byte = 0 := by
      by_contra hne
      exact hdiffers (if_neg hne)
    exact Prod.ext (by omega) (by omega)
  have hmem : (0, 0) ∈ Scan.differing
      (bytesDiffer r.canvas.at collidingEpd.previous.at kStride) 300 50 := by
    refine (collidingEpd.mem_differing_iff r 0).2 ?_
    rw [hprevious, hcanvas]
    decide
  have hne := List.ne_nil_of_mem hmem
  refine ⟨hbounds.changed.2 hne, ?_, ?_, ?_, ?_⟩
  · obtain ⟨⟨p, hp, heq⟩, -⟩ := hbounds.minByte hne
    rw [← heq, hfirst p hp]
  · obtain ⟨⟨p, hp, heq⟩, -⟩ := hbounds.maxByte hne
    rw [← heq, hfirst p hp]
  · obtain ⟨⟨p, hp, heq⟩, -⟩ := hbounds.minY hne
    rw [← heq, hfirst p hp]
  · obtain ⟨⟨p, hp, heq⟩, -⟩ := hbounds.maxY hne
    rw [← heq, hfirst p hp]

/-- The other of the two, with a small change of the canvas, is done as a partial refresh. -/
theorem qr_change_refreshes_part :
    collidingEpd.shown = some (.kAboutQr, some collidingTexts.1) ∧
    collidingTexts.1 ≠ collidingTexts.2 ∧
    ∃ plan, collidingEpd.plan ⟨dottedFrame, .kAboutQr, some collidingTexts.2, false⟩ = some plan ∧
      plan.action = .partialRefresh := by
  obtain ⟨plan, hfull, heq⟩ := collidingEpd_eq
  have hscan := @scan_collidingEpd ⟨dottedFrame, .kAboutQr, some collidingTexts.2, false⟩ rfl
  have hhash : qrFingerprint (some collidingTexts.2) = qrFingerprint (some collidingTexts.1) := by
    decide
  have hsemantic : collidingEpd.semanticFull
      ⟨dottedFrame, .kAboutQr, some collidingTexts.2, false⟩ = false := by
    rw [heq]
    simp [Epd.semanticFull, Epd.commit, hhash]
  have hcount : collidingEpd.partialCount = 0 := by
    rw [heq]
    exact if_pos hfull
  refine ⟨by rw [heq]; rfl, by decide, _, Epd.plan_eq _ _, ?_⟩
  rw [hsemantic, hcount, hscan.1, hscan.2.1, hscan.2.2.1, hscan.2.2.2.1, hscan.2.2.2.2]
  decide

end VibeUsage
