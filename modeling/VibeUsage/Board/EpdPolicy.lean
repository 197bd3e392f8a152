import Mathlib

/-!
# What to refresh of the e-paper panel

`main/epd_refresh_policy.c`: two packed frames are compared byte by byte, and the smallest rectangle
around what differs is refreshed, unless that is not enough. `Scan.Bounds` is what the loop keeps.

The scan is a fold over the places of the frame, and each place that differs widens the bounds
(`bounds_foldl`), so the rectangle is the least one (`bounds_run`). What `note4_epd_plan_refresh`
makes of it is in `EpdRectangle`.
-/

namespace VibeUsage

/-- A `size_t`. -/
def sizeT (n : ℕ) : ℕ := n % 2 ^ 32

def SIZE_MAX : ℕ := 2 ^ 32 - 1
def UINT32_MAX : ℕ := 2 ^ 32 - 1
def UINT16_MAX : ℕ := 2 ^ 16 - 1

/-- `note4_epd_refresh_action_t`. -/
inductive EpdAction
  | skip
  | full
  | partialRefresh
deriving DecidableEq

/-- `note4_epd_refresh_plan_t`. -/
structure EpdPlan where
  action : EpdAction
  x : UInt16
  y : UInt16
  width : UInt16
  height : UInt16
  rowBytes : ℕ
  changedArea : UInt32
deriving DecidableEq

/-! ### The comparison -/

/-- What the loop has seen. -/
structure Scan where
  minByte : ℕ
  maxByte : ℕ
  minY : ℕ
  maxY : ℕ
  changed : Bool

namespace Scan

/-- Before the first byte. -/
def init (visibleRowBytes height : ℕ) : Scan :=
  { minByte := visibleRowBytes, maxByte := 0, minY := height, maxY := 0, changed := false }

/-- A byte that differs. -/
def see (s : Scan) (y byte : ℕ) : Scan :=
  { minByte := if !s.changed || byte < s.minByte then byte else s.minByte
    maxByte := if !s.changed || byte > s.maxByte then byte else s.maxByte
    minY := if !s.changed || y < s.minY then y else s.minY
    maxY := if !s.changed || y > s.maxY then y else s.maxY
    changed := true }

/-- The body of the two loops. -/
def look (differs : ℕ → ℕ → Bool) (s : Scan) (place : ℕ × ℕ) : Scan :=
  if differs place.1 place.2 then s.see place.1 place.2 else s

/-- The two loops, row by row. -/
def run (differs : ℕ → ℕ → Bool) (height visibleRowBytes : ℕ) : Scan :=
  ((List.range height).product (List.range visibleRowBytes)).foldl (look differs)
    (init visibleRowBytes height)

/-- `m` is the first of the values of `f` in the order `r`, if there are any. -/
def First (r : ℕ → ℕ → Prop) (f : ℕ × ℕ → ℕ) (places : List (ℕ × ℕ)) (m : ℕ) : Prop :=
  places ≠ [] → (∃ p ∈ places, f p = m) ∧ ∀ p ∈ places, r m (f p)

/-- One more place: its value if there was none or it comes before. -/
theorem First.snoc {r : ℕ → ℕ → Prop} [Std.Total r] [IsTrans ℕ r] [Std.Refl r]
    {f : ℕ × ℕ → ℕ} {places : List (ℕ × ℕ)} {m : ℕ} (h : First r f places m) (q : ℕ × ℕ)
    {c : Prop} [Decidable c] (hc : c ↔ places = [] ∨ ¬ r m (f q)) :
    First r f (places ++ [q]) (if c then f q else m) := by
  intro _
  split
  · rename_i hnew
    refine ⟨⟨q, by simp, rfl⟩, fun p hp ↦ ?_⟩
    rcases List.mem_append.1 hp with hp | hp
    · have hfirst := (h (List.ne_nil_of_mem hp)).2 p hp
      have hbefore : ¬ r m (f q) := (hc.1 hnew).resolve_left (List.ne_nil_of_mem hp)
      exact trans_of r ((total_of r m (f q)).resolve_left hbefore) hfirst
    · rw [List.mem_singleton.1 hp]
      exact refl_of r _
  · rename_i hold
    obtain ⟨hne, hle⟩ := not_or.1 fun hor ↦ hold (hc.2 hor)
    obtain ⟨⟨p, hp, heq⟩, hall⟩ := h hne
    refine ⟨⟨p, List.mem_append_left _ hp, heq⟩, fun p hp ↦ ?_⟩
    rcases List.mem_append.1 hp with hp | hp
    · exact hall p hp
    · rw [List.mem_singleton.1 hp]
      exact not_not.1 hle

/-- The smallest rectangle around the places that differ. -/
structure Bounds (places : List (ℕ × ℕ)) (s : Scan) : Prop where
  changed : s.changed = true ↔ places ≠ []
  minByte : First (· ≤ ·) Prod.snd places s.minByte
  maxByte : First (· ≥ ·) Prod.snd places s.maxByte
  minY : First (· ≤ ·) Prod.fst places s.minY
  maxY : First (· ≥ ·) Prod.fst places s.maxY

/-- Nothing has been seen yet. -/
theorem bounds_init (v h : ℕ) : (init v h).Bounds [] := by
  constructor <;> simp [init, First]

/-- The rectangle grows by the place. -/
theorem Bounds.see {places : List (ℕ × ℕ)} {s : Scan} (h : s.Bounds places) (y byte : ℕ) :
    (s.see y byte).Bounds (places ++ [(y, byte)]) := by
  have hnone : (!s.changed) = true ↔ places = [] := by
    rw [Bool.not_eq_true', ← Bool.not_eq_true, h.changed, not_not]
  constructor
  · simp [Scan.see]
  · exact h.minByte.snoc (y, byte) (by simp [hnone])
  · exact h.maxByte.snoc (y, byte) (by simp [hnone])
  · exact h.minY.snoc (y, byte) (by simp [hnone])
  · exact h.maxY.snoc (y, byte) (by simp [hnone])

/-- **Every place** that is looked at widens the bounds. -/
theorem bounds_foldl (differs : ℕ → ℕ → Bool) (todo : List (ℕ × ℕ)) :
    ∀ {places : List (ℕ × ℕ)} {s : Scan}, s.Bounds places →
      (todo.foldl (look differs) s).Bounds (places ++ todo.filter fun p ↦ differs p.1 p.2) := by
  induction todo with
  | nil =>
    intro places s h
    simpa using h
  | cons p todo ih =>
    intro places s h
    rw [List.foldl_cons, List.filter_cons]
    unfold look
    split
    · have hsee := ih (h.see p.1 p.2)
      rwa [List.append_assoc] at hsee
    · exact ih h

/-- The places that differ. -/
def differing (differs : ℕ → ℕ → Bool) (height visibleRowBytes : ℕ) : List (ℕ × ℕ) :=
  ((List.range height).product (List.range visibleRowBytes)).filter fun p ↦ differs p.1 p.2

/-- The places where the frames differ. -/
theorem mem_differing {differs : ℕ → ℕ → Bool} {height visibleRowBytes y byte : ℕ} :
    (y, byte) ∈ differing differs height visibleRowBytes ↔
      y < height ∧ byte < visibleRowBytes ∧ differs y byte = true := by
  unfold differing
  rw [List.mem_filter, List.pair_mem_product, List.mem_range, List.mem_range, and_assoc]

/-- **The loop finds the rectangle.** -/
theorem bounds_run (differs : ℕ → ℕ → Bool) (height visibleRowBytes : ℕ) :
    (run differs height visibleRowBytes).Bounds (differing differs height visibleRowBytes) :=
  bounds_foldl differs _ (bounds_init visibleRowBytes height)

end Scan

/-- A byte of a visible row differs. -/
def bytesDiffer (current previous : ℕ → UInt8) (stride y byte : ℕ) : Bool :=
  decide (current (sizeT (sizeT (y * stride) + byte)) ≠ previous
    (sizeT (sizeT (y * stride) + byte)))

/-- `note4_epd_plan_refresh`; the frames are read below `frameSize` only. -/
def note4EpdPlanRefresh (current previous : ℕ → UInt8) (frameSize : ℕ) (width height : UInt16)
    (stride : ℕ) (previousValid forceFull layoutChanged qrChanged : Bool) (partialCount : UInt8) :
    Option EpdPlan :=
  if width = 0 ∨ height = 0 then none
  else
    let visibleRowBytes := sizeT (width.toNat + 7) / 8
    if stride < visibleRowBytes ∨ SIZE_MAX / stride < height.toNat ∨
        frameSize < sizeT (height.toNat * stride) then none
    else
      let fullArea := width.toNat * height.toNat % 2 ^ 64
      if UINT32_MAX < fullArea then none
      else
        let s := Scan.run (bytesDiffer current previous stride) height.toNat visibleRowBytes
        let semanticFull := forceFull || !previousValid || layoutChanged || qrChanged
        if s.changed = false then
          if semanticFull then
            some { action := .full, x := 0, y := 0, width := width, height := height,
                   rowBytes := visibleRowBytes, changedArea := UInt32.ofNat fullArea }
          else
            some { action := .skip, x := 0, y := 0, width := 0, height := 0, rowBytes := 0,
                   changedArea := 0 }
        else
          let left := sizeT (s.minByte * 8)
          let right := min (sizeT (sizeT (s.maxByte + 1) * 8)) width.toNat
          let rectWidth := sizeT (right + 2 ^ 32 - left)
          let rectHeight := sizeT (s.maxY + 2 ^ 32 - s.minY + 1)
          let changedArea := sizeT (rectWidth * rectHeight)
          if UINT16_MAX < left ∨ UINT16_MAX < rectWidth ∨ UINT16_MAX < rectHeight ∨
              UINT32_MAX < changedArea then none
          else
            some { action :=
                     if semanticFull || decide (10 ≤ partialCount) ||
                         decide (fullArea < changedArea * 2 % 2 ^ 64) then .full
                     else .partialRefresh
                   x := UInt16.ofNat left
                   y := UInt16.ofNat s.minY
                   width := UInt16.ofNat rectWidth
                   height := UInt16.ofNat rectHeight
                   rowBytes := sizeT (s.maxByte + 2 ^ 32 - s.minByte + 1)
                   changedArea := UInt32.ofNat changedArea }

end VibeUsage
