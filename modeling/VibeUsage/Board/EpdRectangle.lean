import VibeUsage.Board.EpdPolicy

/-!
# The rectangle of a refresh

What `note4_epd_plan_refresh` answers for frames of any size: nothing is to be done exactly when no
visible byte differs and nothing else asks for a refresh; otherwise the rectangle is the smallest
that starts on a byte boundary and has every byte that differs. None of its computations leaves the
range of a 32-bit `size_t`.

The sizes of the frame are checked by the code in 64 bits. `SizesFit` is what a plan that was
returned at all says of them, and from it no index of a byte wraps (`SizesFit.bytesDiffer_iff`).
That the rectangle is the smallest is stated against every other rectangle that holds all the bytes
that differ.
-/

namespace VibeUsage

/-! ### Rectangles of pixels -/

/-- A rectangle, from its upper left pixel. -/
structure Rect where
  x : ℕ
  y : ℕ
  width : ℕ
  height : ℕ

namespace Rect

/-- All pixels of a byte are inside; those beyond `frameWidth` are not pixels. -/
def Holds (frameWidth : ℕ) (r : Rect) (y byte : ℕ) : Prop :=
  r.y ≤ y ∧ y < r.y + r.height ∧ r.x ≤ byte * 8 ∧ min (byte * 8 + 8) frameWidth ≤ r.x + r.width

/-- A rectangle of a frame that starts on a byte boundary. -/
def Fits (frameWidth frameHeight : ℕ) (r : Rect) : Prop :=
  r.x % 8 = 0 ∧ r.x + r.width ≤ frameWidth ∧ r.y + r.height ≤ frameHeight

/-- One rectangle in another. -/
def Within (r r' : Rect) : Prop :=
  r'.x ≤ r.x ∧ r.x + r.width ≤ r'.x + r'.width ∧ r'.y ≤ r.y ∧ r.y + r.height ≤ r'.y + r'.height

end Rect

/-- The rectangle of a plan. -/
def EpdPlan.rect (plan : EpdPlan) : Rect :=
  ⟨plan.x.toNat, plan.y.toNat, plan.width.toNat, plan.height.toNat⟩

/-- The bytes of a row that have pixels. -/
def visibleBytes (width : ℕ) : ℕ := (width + 7) / 8

/-- A byte of a visible row that is not the same in both frames. -/
def Differs (current previous : ℕ → UInt8) (width height stride y byte : ℕ) : Prop :=
  y < height ∧ byte < visibleBytes width ∧
    current (y * stride + byte) ≠ previous (y * stride + byte)

/-! ### What the planner computes -/

section Computations

variable {current previous : ℕ → UInt8} {frameSize stride : ℕ} {width height : UInt16}
  {previousValid forceFull layoutChanged qrChanged : Bool} {partialCount : UInt8} {plan : EpdPlan}

/-- What the planner has checked of the sizes. -/
structure SizesFit (frameSize stride : ℕ) (width height : UInt16) : Prop where
  width_pos : 0 < width.toNat
  height_pos : 0 < height.toNat
  row : visibleBytes width.toNat ≤ stride
  frame : height.toNat * stride ≤ frameSize ∧ height.toNat * stride < 2 ^ 32

/-- A size below 2 to the 32nd does not wrap. -/
theorem sizeT_of_lt {n : ℕ} (h : n < 2 ^ 32) : sizeT n = n := Nat.mod_eq_of_lt h

/-- The visible bytes of a row. -/
theorem sizeT_visible (width : UInt16) : sizeT (width.toNat + 7) / 8 =
    visibleBytes width.toNat := by
  have hwidth := width.toNat_lt
  rw [sizeT_of_lt (by omega), visibleBytes]

/-- The sizes of an accepted call. -/
theorem sizesFit_of_plan (h : note4EpdPlanRefresh current previous frameSize width height stride
    previousValid forceFull layoutChanged qrChanged partialCount = some plan) :
    SizesFit frameSize stride width height := by
  unfold note4EpdPlanRefresh at h
  split at h
  · cases h
  rename_i hzero
  obtain ⟨hwidth, hheight⟩ := not_or.1 hzero
  have hwidth' : width.toNat ≠ 0 := fun hw ↦ hwidth (UInt16.toNat_inj.1 hw)
  have hheight' : height.toNat ≠ 0 := fun hh ↦ hheight (UInt16.toNat_inj.1 hh)
  dsimp only at h
  rw [sizeT_visible] at h
  split at h
  · cases h
  rename_i hguard
  obtain ⟨hstride, hguard⟩ := not_or.1 hguard
  obtain ⟨hmax, hframe⟩ := not_or.1 hguard
  have hpos : 0 < stride := by
    unfold visibleBytes at hstride
    omega
  have hproduct : height.toNat * stride < 2 ^ 32 := by
    have hle := (Nat.le_div_iff_mul_le hpos).1 (Nat.le_of_not_lt hmax)
    unfold SIZE_MAX at hle
    omega
  rw [sizeT_of_lt hproduct] at hframe
  exact ⟨by omega, by omega, by omega, by omega, hproduct⟩

/-- The offset of a visible byte is in the frame. -/
theorem SizesFit.offset (hfit : SizesFit frameSize stride width height) {y byte : ℕ}
    (hy : y < height.toNat) (hbyte : byte < visibleBytes width.toNat) :
    y * stride + byte < height.toNat * stride := by
  have hstride := hfit.row
  calc y * stride + byte < y * stride + stride := by omega
    _ = (y + 1) * stride := (Nat.succ_mul y stride).symm
    _ ≤ height.toNat * stride := Nat.mul_le_mul_right stride hy

/-- **No index wraps** when the sizes fit. -/
theorem SizesFit.bytesDiffer_iff (hfit : SizesFit frameSize stride width height) {y byte : ℕ}
    (hy : y < height.toNat) (hbyte : byte < visibleBytes width.toNat) :
    bytesDiffer current previous stride y byte = true ↔
      current (y * stride + byte) ≠ previous (y * stride + byte) := by
  have hoffset := hfit.offset hy hbyte
  have hlt := hfit.frame.2
  rw [bytesDiffer, decide_eq_true_iff, sizeT_of_lt (show y * stride < 2 ^ 32 by omega),
    sizeT_of_lt (by omega)]

/-- What the two loops find. -/
def scanOf (current previous : ℕ → UInt8) (width height : UInt16) (stride : ℕ) : Scan :=
  Scan.run (bytesDiffer current previous stride) height.toNat (visibleBytes width.toNat)

/-- The places the loops stop at are the bytes that differ. -/
theorem SizesFit.mem_differing (hfit : SizesFit frameSize stride width height) {y byte : ℕ} :
    (y, byte) ∈ Scan.differing (bytesDiffer current previous stride) height.toNat
      (visibleBytes width.toNat) ↔
      Differs current previous width.toNat height.toNat stride y byte := by
  rw [Scan.mem_differing]
  constructor
  · rintro ⟨hy, hbyte, hdiffer⟩
    exact ⟨hy, hbyte, (hfit.bytesDiffer_iff hy hbyte).1 hdiffer⟩
  · rintro ⟨hy, hbyte, hdiffer⟩
    exact ⟨hy, hbyte, (hfit.bytesDiffer_iff hy hbyte).2 hdiffer⟩

/-- The rectangle of the scan is in the frame. -/
structure Found (s : Scan) (width height : ℕ) : Prop where
  byte_le : s.minByte ≤ s.maxByte
  byte_lt : s.maxByte < visibleBytes width
  y_le : s.minY ≤ s.maxY
  y_lt : s.maxY < height

/-- A change has been found somewhere. -/
theorem found_of_changed (h : (scanOf current previous width height stride).changed = true) :
    Found (scanOf current previous width height stride) width.toNat height.toNat := by
  have hbounds := Scan.bounds_run (bytesDiffer current previous stride) height.toNat
    (visibleBytes width.toNat)
  rw [← scanOf] at hbounds
  have hne := hbounds.changed.1 h
  obtain ⟨⟨p, hp, -⟩, hmin⟩ := hbounds.minByte hne
  obtain ⟨⟨q, hq, hmaxByte⟩, hmax⟩ := hbounds.maxByte hne
  obtain ⟨-, hminY⟩ := hbounds.minY hne
  obtain ⟨⟨r, hr, hmaxY⟩, hmaxY'⟩ := hbounds.maxY hne
  have hq' := Scan.mem_differing.1 (show (q.1, q.2) ∈ _ from hq)
  have hr' := Scan.mem_differing.1 (show (r.1, r.2) ∈ _ from hr)
  exact ⟨(hmin p hp).trans (hmax p hp), hmaxByte ▸ hq'.2.1, (hminY p hp).trans (hmaxY' p hp),
    hmaxY ▸ hr'.1⟩

/-- The rectangle around what the scan found, with its area, without any wrapping. -/
def foundRect (s : Scan) (frameWidth : ℕ) : Rect where
  x := s.minByte * 8
  y := s.minY
  width := min ((s.maxByte + 1) * 8) frameWidth - s.minByte * 8
  height := s.maxY - s.minY + 1

/-- No computation of the planner wraps: each of them is exact in the range of its type. -/
structure Exact (s : Scan) (stride : ℕ) (width height : UInt16) : Prop where
  visible : width.toNat + 7 < 2 ^ 32
  frame : height.toNat * stride < 2 ^ 32
  offset : ∀ y < height.toNat, ∀ byte < visibleBytes width.toNat,
    y * stride < 2 ^ 32 ∧ y * stride + byte < 2 ^ 32
  fullArea : width.toNat * height.toNat < 2 ^ 32
  left : s.changed = true → s.minByte * 8 < 2 ^ 16
  right : s.changed = true → (s.maxByte + 1) * 8 < 2 ^ 32
  rectWidth : s.changed = true → s.minByte * 8 < min ((s.maxByte + 1) * 8) width.toNat
  rectHeight : s.changed = true →
    s.minY ≤ s.maxY ∧ s.maxY < 2 ^ 16 ∧ s.maxY - s.minY + 1 < 2 ^ 16
  area : s.changed = true → (foundRect s width.toNat).width * (foundRect s width.toNat).height ≤
    width.toNat * height.toNat
  twice : s.changed = true →
    (foundRect s width.toNat).width * (foundRect s width.toNat).height * 2 < 2 ^ 64

/-- The scan is exact. -/
theorem SizesFit.exact (hfit : SizesFit frameSize stride width height) :
    Exact (scanOf current previous width height stride) stride width height := by
  have hwidth := width.toNat_lt
  have hheight := height.toNat_lt
  have hfull : width.toNat * height.toNat ≤ 65535 * 65535 := Nat.mul_le_mul (by omega) (by omega)
  have harea : (scanOf current previous width height stride).changed = true →
      (foundRect (scanOf current previous width height stride) width.toNat).width *
        (foundRect (scanOf current previous width height stride) width.toNat).height ≤
      width.toNat * height.toNat := by
    intro h
    obtain ⟨hbyte, hbyteLt, hy, hyLt⟩ := found_of_changed h
    refine Nat.mul_le_mul ?_ ?_
    · unfold foundRect
      dsimp only
      omega
    · unfold foundRect
      dsimp only
      omega
  refine ⟨by omega, hfit.frame.2, fun y hy byte hbyte ↦ ?_, by omega, fun h ↦ ?_, fun h ↦ ?_,
    fun h ↦ ?_, fun h ↦ ?_, harea, fun h ↦ ?_⟩
  · have hoffset := hfit.offset hy hbyte
    have hframe := hfit.frame.2
    omega
  · obtain ⟨hbyte, hbyteLt, -, -⟩ := found_of_changed h
    unfold visibleBytes at hbyteLt
    omega
  · obtain ⟨-, hbyteLt, -, -⟩ := found_of_changed h
    unfold visibleBytes at hbyteLt
    omega
  · obtain ⟨hbyte, hbyteLt, -, -⟩ := found_of_changed h
    unfold visibleBytes at hbyteLt
    omega
  · obtain ⟨-, -, hy, hyLt⟩ := found_of_changed h
    omega
  · have hle := harea h
    omega

/-- Why a full refresh may be asked for although nothing differs. -/
def semanticFull (previousValid forceFull layoutChanged qrChanged : Bool) : Bool :=
  forceFull || !previousValid || layoutChanged || qrChanged

/-- What an accepted call answers, by what the scan found. -/
theorem plan_cases (h : note4EpdPlanRefresh current previous frameSize width height stride
    previousValid forceFull layoutChanged qrChanged partialCount = some plan) :
    ((scanOf current previous width height stride).changed = false ∧
      plan.action = if semanticFull previousValid forceFull layoutChanged qrChanged then .full
        else .skip) ∨
    ((scanOf current previous width height stride).changed = true ∧
      plan.rect = foundRect (scanOf current previous width height stride) width.toNat ∧
      plan.action = if semanticFull previousValid forceFull layoutChanged qrChanged ||
          decide (10 ≤ partialCount) || decide (width.toNat * height.toNat <
            plan.rect.width * plan.rect.height * 2) then .full else .partialRefresh) := by
  -- The sizes fit, so every expression below is exact although `size_t` could wrap.
  have hexact : Exact (scanOf current previous width height stride) stride width height :=
    (sizesFit_of_plan h).exact
  unfold note4EpdPlanRefresh at h
  split at h
  · cases h
  dsimp only at h
  rw [sizeT_visible, ← scanOf, ← semanticFull] at h
  split at h
  · cases h
  split at h
  · cases h
  split at h
  · rename_i hchanged
    refine .inl ⟨hchanged, ?_⟩
    split at h
    · rename_i hsemantic
      rw [if_pos hsemantic, ← Option.some.inj h]
    · rename_i hsemantic
      rw [if_neg hsemantic, ← Option.some.inj h]
  · rename_i hchanged
    rw [Bool.not_eq_false] at hchanged
    have hleft := hexact.left hchanged
    have hright := hexact.right hchanged
    have hwidth := hexact.rectWidth hchanged
    have hheight := hexact.rectHeight hchanged
    have harea := hexact.area hchanged
    have hfull := hexact.fullArea
    generalize scanOf current previous width height stride = s at *
    have hwidth16 := width.toNat_lt
    have hminus : sizeT (min ((s.maxByte + 1) * 8) width.toNat + 2 ^ 32 - s.minByte * 8) =
        (foundRect s width.toNat).width := by
      unfold sizeT foundRect
      dsimp only
      omega
    have hrows : sizeT (s.maxY + 2 ^ 32 - s.minY + 1) = (foundRect s width.toNat).height := by
      unfold sizeT foundRect
      dsimp only
      omega
    have hwidthLt : (foundRect s width.toNat).width < 2 ^ 16 := by
      unfold foundRect
      dsimp only
      omega
    have hheightLt : (foundRect s width.toNat).height < 2 ^ 16 := hheight.2.2
    rw [sizeT_of_lt (show s.minByte * 8 < 2 ^ 32 by omega),
      sizeT_of_lt (show s.maxByte + 1 < 2 ^ 32 by omega), sizeT_of_lt hright, hminus, hrows,
      sizeT_of_lt (by omega), Nat.mod_eq_of_lt (show width.toNat * height.toNat < 2 ^ 64 by omega),
      Nat.mod_eq_of_lt (by omega)] at h
    split at h
    · cases h
    · have hrect : plan.rect = foundRect s width.toNat := by
        rw [← Option.some.inj h]
        unfold EpdPlan.rect
        dsimp only
        rw [UInt16.toNat_ofNat', UInt16.toNat_ofNat', UInt16.toNat_ofNat', UInt16.toNat_ofNat',
          Nat.mod_eq_of_lt hleft, Nat.mod_eq_of_lt hwidthLt, Nat.mod_eq_of_lt hheightLt,
          Nat.mod_eq_of_lt (show s.minY < 2 ^ 16 by omega)]
        rfl
      refine .inr ⟨hchanged, hrect, ?_⟩
      rw [hrect, ← Option.some.inj h]

end Computations

/-! ### The answer -/

section Answer

variable {current previous : ℕ → UInt8} {frameSize stride : ℕ} {width height : UInt16}

/-- The scan has changed when a visible byte differs. -/
theorem SizesFit.changed_iff (hfit : SizesFit frameSize stride width height) :
    (scanOf current previous width height stride).changed = true ↔
      ∃ y byte, Differs current previous width.toNat height.toNat stride y byte := by
  have hbounds := Scan.bounds_run (bytesDiffer current previous stride) height.toNat
    (visibleBytes width.toNat)
  rw [scanOf, hbounds.changed]
  constructor
  · intro hne
    obtain ⟨⟨y, byte⟩, hmem⟩ := List.exists_mem_of_ne_nil _ hne
    exact ⟨y, byte, hfit.mem_differing.1 hmem⟩
  · rintro ⟨y, byte, hdiffers⟩
    exact List.ne_nil_of_mem (hfit.mem_differing.2 hdiffers)

/-- Every byte that differs is in the rectangle. -/
theorem SizesFit.holds_foundRect (hfit : SizesFit frameSize stride width height) {y byte : ℕ}
    (h : Differs current previous width.toNat height.toNat stride y byte) :
    (foundRect (scanOf current previous width height stride) width.toNat).Holds width.toNat
      y byte := by
  have hbounds := Scan.bounds_run (bytesDiffer current previous stride) height.toNat
    (visibleBytes width.toNat)
  have hmem := hfit.mem_differing.2 h
  have hne := List.ne_nil_of_mem hmem
  have hminByte := (hbounds.minByte hne).2 _ hmem
  have hmaxByte := (hbounds.maxByte hne).2 _ hmem
  have hminY := (hbounds.minY hne).2 _ hmem
  have hmaxY := (hbounds.maxY hne).2 _ hmem
  rw [← scanOf] at hminByte hmaxByte hminY hmaxY
  have hscan : Exact (scanOf current previous width height stride) stride width height :=
    hfit.exact
  have hexact := hscan.rectWidth (hfit.changed_iff.2 ⟨y, byte, h⟩)
  generalize scanOf current previous width height stride = s at *
  dsimp only at hminByte hmaxByte hminY hmaxY
  unfold Rect.Holds foundRect
  dsimp only
  omega

/-- The rectangle lies in the frame. -/
theorem SizesFit.foundRect_fits (hfit : SizesFit frameSize stride width height)
    (h : (scanOf current previous width height stride).changed = true) :
    (foundRect (scanOf current previous width height stride) width.toNat).Fits width.toNat
      height.toNat := by
  have hfound := found_of_changed h
  have hscan : Exact (scanOf current previous width height stride) stride width height :=
    hfit.exact
  have hexact := hscan.rectWidth h
  obtain ⟨-, -, hy, hyLt⟩ := hfound
  generalize scanOf current previous width height stride = s at *
  unfold Rect.Fits foundRect
  dsimp only
  omega

/-- A rectangle that has every byte that differs has the rectangle of the scan. -/
theorem SizesFit.foundRect_within (hfit : SizesFit frameSize stride width height)
    (h : (scanOf current previous width height stride).changed = true) {r : Rect}
    (hr : ∀ y byte, Differs current previous width.toNat height.toNat stride y byte →
      r.Holds width.toNat y byte) :
    (foundRect (scanOf current previous width height stride) width.toNat).Within r := by
  have hbounds := Scan.bounds_run (bytesDiffer current previous stride) height.toNat
    (visibleBytes width.toNat)
  rw [← scanOf] at hbounds
  have hne := hbounds.changed.1 h
  -- Each side is at a byte that differs.
  obtain ⟨⟨⟨y₁, byte₁⟩, hmem₁, hminByte⟩, -⟩ := hbounds.minByte hne
  obtain ⟨⟨⟨y₂, byte₂⟩, hmem₂, hmaxByte⟩, -⟩ := hbounds.maxByte hne
  obtain ⟨⟨⟨y₃, byte₃⟩, hmem₃, hminY⟩, -⟩ := hbounds.minY hne
  obtain ⟨⟨⟨y₄, byte₄⟩, hmem₄, hmaxY⟩, -⟩ := hbounds.maxY hne
  obtain ⟨-, -, hleft, -⟩ := hr _ _ (hfit.mem_differing.1 hmem₁)
  obtain ⟨-, -, -, hright⟩ := hr _ _ (hfit.mem_differing.1 hmem₂)
  obtain ⟨htop, -, -, -⟩ := hr _ _ (hfit.mem_differing.1 hmem₃)
  obtain ⟨-, hbottom, -, -⟩ := hr _ _ (hfit.mem_differing.1 hmem₄)
  have hscan : Exact (scanOf current previous width height stride) stride width height :=
    hfit.exact
  have hexact := hscan.rectWidth h
  have hy := (found_of_changed h).y_le
  dsimp only at hminByte hmaxByte hminY hmaxY
  rw [hminByte] at hleft
  rw [hmaxByte] at hright
  rw [hminY] at htop
  rw [hmaxY] at hbottom
  generalize scanOf current previous width height stride = s at *
  unfold Rect.Within foundRect
  dsimp only
  omega

/-- **The plan is the smallest that is enough**: nothing exactly when nothing differs and no full
refresh is asked for; else a rectangle of the frame, on a byte boundary, that has every byte that
differs and is in every rectangle that has them; and a partial refresh of it exactly when that may
still be done and the rectangle is at most half of the frame. No computation wraps. -/
theorem note4EpdPlanRefresh_correct {previousValid forceFull layoutChanged qrChanged : Bool}
    {partialCount : UInt8} {plan : EpdPlan}
    (h : note4EpdPlanRefresh current previous frameSize width height stride previousValid forceFull
      layoutChanged qrChanged partialCount = some plan) :
    (plan.action = .skip ↔
      (¬ ∃ y byte, Differs current previous width.toNat height.toNat stride y byte) ∧
      forceFull = false ∧ previousValid = true ∧ layoutChanged = false ∧ qrChanged = false) ∧
    ((∃ y byte, Differs current previous width.toNat height.toNat stride y byte) →
      (∀ y byte, Differs current previous width.toNat height.toNat stride y byte →
        plan.rect.Holds width.toNat y byte) ∧
      plan.rect.Fits width.toNat height.toNat ∧
      (∀ r : Rect, (∀ y byte, Differs current previous width.toNat height.toNat stride y byte →
        r.Holds width.toNat y byte) → plan.rect.Within r) ∧
      (plan.action = .partialRefresh ↔
        (forceFull = false ∧ previousValid = true ∧ layoutChanged = false ∧ qrChanged = false) ∧
        partialCount < 10 ∧
        2 * (plan.rect.width * plan.rect.height) ≤ width.toNat * height.toNat)) ∧
    Exact (scanOf current previous width height stride) stride width height := by
  have hfit := sizesFit_of_plan h
  have hsemantic : semanticFull previousValid forceFull layoutChanged qrChanged = false ↔
      forceFull = false ∧ previousValid = true ∧ layoutChanged = false ∧ qrChanged = false := by
    simp [semanticFull, and_assoc]
  -- Whether anything is done, and then where and how.
  refine ⟨?_, fun hdiffers ↦ ?_, hfit.exact⟩
  · rw [← hsemantic, ← hfit.changed_iff, Bool.not_eq_true]
    rcases plan_cases h with ⟨hchanged, haction⟩ | ⟨hchanged, -, haction⟩
    · rw [haction, hchanged]
      cases semanticFull previousValid forceFull layoutChanged qrChanged <;> simp
    · rw [haction, hchanged]
      split <;> simp
  · have hchanged := hfit.changed_iff.2 hdiffers
    rcases plan_cases h with ⟨hnot, -⟩ | ⟨-, hrect, haction⟩
    · rw [hchanged] at hnot
      cases hnot
    · refine ⟨fun y byte hbyte ↦ ?_, ?_, fun r hr ↦ ?_, ?_⟩
      · rw [hrect]
        exact hfit.holds_foundRect hbyte
      · rw [hrect]
        exact hfit.foundRect_fits hchanged
      · rw [hrect]
        exact hfit.foundRect_within hchanged hr
      · rw [← hsemantic, haction]
        cases semanticFull previousValid forceFull layoutChanged qrChanged
        · simp only [Bool.false_or, Bool.or_eq_true, decide_eq_true_eq, true_and]
          split
          · rename_i hfull
            simp only [reduceCtorEq, false_iff, not_and]
            rintro hcount harea
            -- Ten partial refreshes already, or a rectangle of more than half of the frame.
            rcases hfull with hten | hhalf
            · exact absurd hten (UInt8.not_le.2 hcount)
            · omega
          · rename_i hpart
            obtain ⟨hten, hhalf⟩ := not_or.1 hpart
            simp only [true_iff]
            exact ⟨UInt8.not_le.1 hten, by omega⟩
        · simp

end Answer

/-- One byte of a frame of 16 by 4 pixels. -/
theorem note4EpdPlanRefresh_one_byte : ∃ plan : EpdPlan,
    note4EpdPlanRefresh (fun i ↦ if i = 3 then 0x7F else 0xFF) (fun _ ↦ 0xFF) 8 16 4 2 true false
      false false 0 = some plan ∧ plan.rect = ⟨8, 1, 8, 1⟩ ∧
    plan.rect.Holds 16 1 1 := by
  have hplan : note4EpdPlanRefresh (fun i ↦ if i = 3 then 0x7F else 0xFF) (fun _ ↦ 0xFF) 8 16 4 2
      true false false false 0 = some ⟨.partialRefresh, 8, 1, 8, 1, 1, 8⟩ := by decide
  have hdiffers : Differs (fun i ↦ if i = 3 then 0x7F else 0xFF) (fun _ ↦ 0xFF) 16 4 2 1 1 :=
    ⟨by decide, by decide, by decide⟩
  exact ⟨_, hplan, rfl, ((note4EpdPlanRefresh_correct hplan).2.1 ⟨1, 1, hdiffers⟩).1 1 1 hdiffers⟩

end VibeUsage
