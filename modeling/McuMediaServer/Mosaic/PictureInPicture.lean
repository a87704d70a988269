import Mathlib.Data.List.Induction
import McuMediaServer.Mosaic.Rectangles

/-!
# Painting a picture-in-picture mosaic

The main image is copied around the small slots, row by row, and an image of a small slot into it.
Where the small slots are is computed twice: when they are painted, and by the getters. The tops are
not the same when there are three of them and the picture is 60 rows high, or higher, and when there
is one of them the chroma is copied with the width that a slot has when there are three.
-/

namespace McuMediaServer

open Overwrite

/-! ## Planes and cells -/

/-- The planes of a picture. -/
inductive Plane where
  | y | u | v
  deriving DecidableEq

namespace Plane

/-- A side of a plane; the chroma planes have half of it. -/
def side : Plane → Nat → Nat
  | y, n => n
  | u, n => n / 2
  | v, n => n / 2

/-- Where a plane begins. -/
def base : Plane → Nat → Nat
  | y, _ => 0
  | u, pixels => pixels
  | v, pixels => pixels + pixels / 4

/-- Where a sample of a picture is. -/
def cell (p : Plane) (width height x y : Nat) : Nat :=
  p.base (width * height) + p.side width * y + x

/-- A rectangle in a plane. -/
def part (p : Plane) (r : Rect) : Rect :=
  ⟨p.side r.left, p.side r.top, p.side r.width, p.side r.height⟩

end Plane

/-- How many samples a picture has. -/
def numSamples (width height : Nat) : Nat :=
  width * height + width * height / 4 + width * height / 4

section Cells

variable {width height x y x' y' : Nat} {p q : Plane}

theorem row_inj {n : Nat} (hx : x < n) (hx' : x' < n) (h : n * y + x = n * y' + x') :
    y = y' ∧ x = x' := by
  have hrow {z z' : Nat} (hlt : z < z') : n * z + n ≤ n * z' := by
    rw [← Nat.mul_succ]
    exact Nat.mul_le_mul_left n hlt
  rcases Nat.lt_trichotomy y y' with hlt | heq | hgt
  · have := hrow hlt
    omega
  · subst heq
    omega
  · have := hrow hgt
    omega

theorem cell_lt (hx : x < p.side width) (hy : y < p.side height) :
    p.cell width height x y < p.base (width * height) + p.side width * p.side height := by
  have hrow : p.side width * (y + 1) ≤ p.side width * p.side height := Nat.mul_le_mul_left _ hy
  rw [Nat.mul_succ] at hrow
  rw [Plane.cell]
  omega

theorem side_mul_side (hwidth : width % 2 = 0) (hheight : height % 2 = 0) :
    width / 2 * (height / 2) = width * height / 4 := by
  obtain ⟨a, rfl⟩ := Nat.dvd_of_mod_eq_zero hwidth
  obtain ⟨b, rfl⟩ := Nat.dvd_of_mod_eq_zero hheight
  rw [Nat.mul_div_cancel_left a Nat.two_pos, Nat.mul_div_cancel_left b Nat.two_pos,
    show 2 * a * (2 * b) = 4 * (a * b) by ring, Nat.mul_div_cancel_left _ (by omega)]

theorem cell_lt_numSamples (hwidth : width % 2 = 0) (hheight : height % 2 = 0)
    (hx : x < p.side width) (hy : y < p.side height) :
    p.cell width height x y < numSamples width height := by
  have hlt := cell_lt hx hy
  have hchroma := side_mul_side hwidth hheight
  rw [numSamples]
  cases p with
  | y =>
    rw [Plane.base, Plane.side, Plane.side] at hlt
    omega
  | u =>
    rw [Plane.base, Plane.side, Plane.side, hchroma] at hlt
    omega
  | v =>
    rw [Plane.base, Plane.side, Plane.side, hchroma] at hlt
    exact hlt

theorem cell_inj (hwidth : width % 2 = 0) (hheight : height % 2 = 0) (hx : x < p.side width)
    (hy : y < p.side height) (hx' : x' < q.side width) (hy' : y' < q.side height)
    (h : p.cell width height x y = q.cell width height x' y') : p = q ∧ y = y' ∧ x = x' := by
  have hlt := cell_lt hx hy
  have hlt' := cell_lt hx' hy'
  have hchroma := side_mul_side hwidth hheight
  have hbase (p : Plane) (x y : Nat) : p.base (width * height) ≤ p.cell width height x y := by
    rw [Plane.cell, Nat.add_assoc]
    exact Nat.le_add_right _ _
  have hpq : p = q := by
    have hle := hbase p x y
    have hle' := hbase q x' y'
    cases p <;> cases q <;> simp only [Plane.base, Plane.side, hchroma] at hlt hlt' hle hle' <;>
      first
        | rfl
        | omega
  subst hpq
  refine ⟨rfl, row_inj hx hx' ?_⟩
  rw [Plane.cell, Plane.cell] at h
  omega

end Cells

/-! ## Copies -/

/-- A copy of `n` samples to a row of a plane, from a place in the image. -/
structure Copy where
  plane : Plane
  x : Nat
  y : Nat
  n : Nat
  src : Nat

namespace Copy

/-- Where a copy begins to write. -/
def dst (c : Copy) (width height : Nat) : Nat := c.plane.cell width height c.x c.y

/-- The cell is written. -/
def Covers (c : Copy) (width height a : Nat) : Prop :=
  c.dst width height ≤ a ∧ a < c.dst width height + c.n

/-- The copy does not leave its row. -/
def Fits (c : Copy) (width height : Nat) : Prop :=
  c.x + c.n ≤ c.plane.side width ∧ c.y < c.plane.side height

/-- Copies made one after the other. -/
def applyAll (width height : Nat) (image : Pointer) (copies : List Copy) (m : Nat → UInt8) :
    Nat → UInt8 :=
  copies.foldl (fun m c => memcpy (c.dst width height) (fun a => image (c.src + a)) c.n m) m

section Apply

variable {width height a : Nat} {image : Pointer} {copies : List Copy} {m : Nat → UInt8}

theorem applyAll_append (copies copies' : List Copy) (m : Nat → UInt8) :
    applyAll width height image (copies ++ copies') m =
      applyAll width height image copies' (applyAll width height image copies m) :=
  List.foldl_append ..

theorem applyAll_singleton (c : Copy) (m : Nat → UInt8) : applyAll width height image [c] m =
    memcpy (c.dst width height) (fun a => image (c.src + a)) c.n m := rfl

theorem applyAll_of_not (h : ∀ c ∈ copies, ¬c.Covers width height a) :
    applyAll width height image copies m a = m a := by
  induction copies using List.reverseRecOn with
  | nil => rfl
  | append_singleton copies c ih =>
    have hc := h c (List.mem_append_right _ List.mem_cons_self)
    rw [applyAll_append, applyAll_singleton, memcpy]
    exact (if_neg hc).trans (ih fun c hc => h c (List.mem_append_left _ hc))

theorem applyAll_of_covered {value : UInt8} (hsome : ∃ c ∈ copies, c.Covers width height a)
    (hvalue : ∀ c ∈ copies, c.Covers width height a →
      image (c.src + (a - c.dst width height)) = value) :
    applyAll width height image copies m a = value := by
  induction copies using List.reverseRecOn with
  | nil =>
    obtain ⟨c, hc, -⟩ := hsome
    cases hc
  | append_singleton copies c ih =>
    rw [applyAll_append, applyAll_singleton, memcpy]
    by_cases hc : c.Covers width height a
    · exact (if_pos hc).trans (hvalue c (List.mem_append_right _ List.mem_cons_self) hc)
    · refine (if_neg hc).trans (ih ?_ fun c hc => hvalue c (List.mem_append_left _ hc))
      obtain ⟨c', hc', hcovers⟩ := hsome
      rcases List.mem_append.1 hc' with hbefore | hlast
      · exact ⟨c', hbefore, hcovers⟩
      · rw [List.mem_singleton.1 hlast] at hcovers
        exact absurd hcovers hc

theorem forRange_eq_applyAll {n : Nat} {body : Nat → (Nat → UInt8) → Nat → UInt8}
    {copies : Nat → List Copy}
    (hbody : ∀ i m, body i m = applyAll width height image (copies i) m) (m : Nat → UInt8) :
    forRange n body m = applyAll width height image ((List.range n).flatMap copies) m := by
  induction n with
  | zero => rfl
  | succ n ih =>
    rw [forRange, ih, hbody, List.range_succ, List.flatMap_append, applyAll_append,
      List.flatMap_singleton]

variable {c : Copy} {p : Plane} {x y : Nat}

theorem covers_iff (hwidth : width % 2 = 0) (hheight : height % 2 = 0)
    (hfits : c.Fits width height) (hx : x < p.side width) (hy : y < p.side height) :
    c.Covers width height (p.cell width height x y) ↔
      c.plane = p ∧ c.y = y ∧ c.x ≤ x ∧ x < c.x + c.n := by
  obtain ⟨hn, hrow⟩ := hfits
  rw [Covers, dst]
  constructor
  · rintro ⟨hle, hlt⟩
    have hcell : c.plane.cell width height
        (c.x + (p.cell width height x y - c.plane.cell width height c.x c.y)) c.y =
          p.cell width height x y := by
      simp only [Plane.cell] at hle hlt ⊢
      omega
    obtain ⟨hplane, hy', hx'⟩ := cell_inj hwidth hheight (by omega) hrow hx hy hcell
    exact ⟨hplane, hy', by omega, by omega⟩
  · rintro ⟨rfl, rfl, hle, hlt⟩
    rw [Plane.cell, Plane.cell]
    omega

end Apply

end Copy

/-! ## The copies of an update -/

namespace PIPMosaic

variable (l : Layout)

/-- A copy of a part of a row of the main image to its place. -/
def sameCopy (p : Plane) (x y n : Nat) : Copy :=
  ⟨p, x, y, n, p.cell l.mosaicTotalWidth l.mosaicTotalHeight x y⟩

/-- Reference: `pipmosaic.cpp:188`. -/
def copiesY (pair x n : Nat) : List Copy :=
  [sameCopy l .y x (2 * pair) n, sameCopy l .y x (2 * pair + 1) n]

/-- Reference: `pipmosaic.cpp:193`. -/
def copiesUV (pair x n : Nat) : List Copy := [sameCopy l .u x pair n, sameCopy l .v x pair n]

/-- Reference: `pipmosaic.cpp:150,217`. -/
def copiesOfRows (pair : Nat) : List Copy :=
  copiesY l pair 0 l.mosaicTotalWidth ++ copiesUV l pair 0 (l.mosaicTotalWidth / 2)

/-- Reference: `pipmosaic.cpp:178`. -/
def copiesAround (pair : Nat) : List Copy :=
  let pipY (i : Nat) := (intraWidth l + mosaicWidth l) * i
  let pipUV (i : Nat) := (intraWidth l / 2 + mosaicWidthUV l) * i
  let last := l.numSlots - 1
  (List.range last).flatMap (fun i => copiesY l pair (pipY i) (intraWidth l) ++
      copiesUV l pair (pipUV i) (intraWidth l / 2)) ++
    (copiesY l pair (pipY last) (l.mosaicTotalWidth - pipY last) ++
      copiesUV l pair (pipUV last) (l.mosaicTotalWidth / 2 - pipUV last))

/-- The copies of the main image. Reference: `pipmosaic.cpp:148`. -/
def copiesOfMain : List Copy :=
  let above := pipIni l / 2
  let beside := mosaicHeight l / 2
  let below := (pipIni l + mosaicHeight l) / 2
  (List.range above).flatMap (copiesOfRows l) ++
    ((List.range beside).flatMap (fun j => copiesAround l (above + j)) ++
      (List.range (l.mosaicTotalHeight / 2 - below)).flatMap
        (fun j => copiesOfRows l (above + beside + j)))

/-- The space between small slots in a plane. -/
def gap (p : Plane) : Nat := p.side (intraWidth l)

/-- The width with which small slots are painted in a plane. -/
def areaWidth : Plane → Nat
  | .y => mosaicWidth l
  | _ => mosaicWidthUV l

/-- Where a small slot is painted in a plane. -/
def area (p : Plane) (pos : Nat) : Rect :=
  ⟨gap l p + (gap l p + areaWidth l p) * (pos - 1), p.side (pipIni l), areaWidth l p,
    p.side (mosaicHeight l)⟩

/-- A copy of a row of a small slot. Its rows lie behind each other in the image, each as wide as
the slot. -/
def slotCopy (p : Plane) (pos i : Nat) : Copy :=
  ⟨p, (area l p pos).left, (area l p pos).top + i, (area l p pos).width,
    p.base (mosaicWidth l * mosaicHeight l) + (area l p pos).width * i⟩

/-- The copies of an image of a small slot. Reference: `pipmosaic.cpp:246`. -/
def copiesOfSlot (pos : Nat) : List Copy :=
  (List.range (mosaicHeight l)).flatMap (fun i => [slotCopy l .y pos i]) ++
    (List.range (mosaicHeight l / 2)).flatMap fun i => [slotCopy l .u pos i, slotCopy l .v pos i]

/-- The copies of an image of exactly the size of its slot. -/
def copies (pos : Nat) : List Copy := if pos = 0 then copiesOfMain l else copiesOfSlot l pos

/-! ## The updates make these copies -/

section Model

variable {l} {image : Pointer} {m : Nat → UInt8}

/-- Copies of a picture. -/
def paste (l : Layout) (image : Pointer) (copies : List Copy) (m : Nat → UInt8) : Nat → UInt8 :=
  Copy.applyAll l.mosaicTotalWidth l.mosaicTotalHeight image copies m

theorem copyY_eq (pair x n : Nat) (m : Nat → UInt8) :
    copyY l image pair x n m = paste l image (copiesY l pair x n) m := by
  have hfirst : Plane.y.cell l.mosaicTotalWidth l.mosaicTotalHeight x (2 * pair) =
      l.mosaicTotalWidth * (2 * pair) + x := by
    simp only [Plane.cell, Plane.base, Plane.side, Nat.zero_add]
  have hsecond : Plane.y.cell l.mosaicTotalWidth l.mosaicTotalHeight x (2 * pair + 1) =
      l.mosaicTotalWidth * (2 * pair) + x + l.mosaicTotalWidth := by
    simp only [Plane.cell, Plane.base, Plane.side, Nat.zero_add, Nat.mul_succ]
    omega
  simp only [paste, Copy.applyAll, copiesY, sameCopy, Copy.dst, List.foldl_cons, List.foldl_nil,
    hfirst, hsecond, copyY]

theorem copyUV_eq (pair x n : Nat) (m : Nat → UInt8) :
    copyUV l (fun a => image (l.mosaicNumPixels + a))
      (fun a => image (l.mosaicNumPixels + l.mosaicNumPixels / 4 + a)) pair x n m =
        paste l image (copiesUV l pair x n) m := by
  have hu : Plane.u.cell l.mosaicTotalWidth l.mosaicTotalHeight x pair =
      l.mosaicNumPixels + (l.mosaicTotalWidth / 2 * pair + x) := by
    simp only [Plane.cell, Plane.base, Plane.side, Layout.mosaicNumPixels, Nat.add_assoc]
  have hv : Plane.v.cell l.mosaicTotalWidth l.mosaicTotalHeight x pair =
      l.mosaicNumPixels + l.mosaicNumPixels / 4 + (l.mosaicTotalWidth / 2 * pair + x) := by
    simp only [Plane.cell, Plane.base, Plane.side, Layout.mosaicNumPixels, Nat.add_assoc]
  simp only [paste, Copy.applyAll, copiesUV, sameCopy, Copy.dst, List.foldl_cons, List.foldl_nil,
    hu, hv, copyUV, Nat.add_assoc]

theorem paste_append (copies copies' : List Copy) (m : Nat → UInt8) :
    paste l image (copies ++ copies') m = paste l image copies' (paste l image copies m) :=
  Copy.applyAll_append ..

theorem forRange_eq_paste {n : Nat} {body : Nat → (Nat → UInt8) → Nat → UInt8}
    {copies : Nat → List Copy} (hbody : ∀ i m, body i m = paste l image (copies i) m)
    (m : Nat → UInt8) : forRange n body m = paste l image ((List.range n).flatMap copies) m :=
  Copy.forRange_eq_applyAll hbody m

theorem copyMain_eq (m : Nat → UInt8) :
    copyMain l image (fun a => image (l.mosaicNumPixels + a))
      (fun a => image (l.mosaicNumPixels + l.mosaicNumPixels / 4 + a)) m =
        paste l image (copiesOfMain l) m := by
  have hrows (pair : Nat) (m : Nat → UInt8) : copyRows l image
      (fun a => image (l.mosaicNumPixels + a))
      (fun a => image (l.mosaicNumPixels + l.mosaicNumPixels / 4 + a)) pair m =
        paste l image (copiesOfRows l pair) m := by
    rw [copyRows, copyY_eq, copyUV_eq, copiesOfRows, paste_append]
  have haround (pair : Nat) (m : Nat → UInt8) : copyRowsAround l image
      (fun a => image (l.mosaicNumPixels + a))
      (fun a => image (l.mosaicNumPixels + l.mosaicNumPixels / 4 + a)) pair m =
        paste l image (copiesAround l pair) m := by
    simp only [copyRowsAround, copiesAround, copyY_eq, copyUV_eq, paste_append]
    refine congrArg _ (congrArg _ ?_)
    refine forRange_eq_paste ?_ m
    intro i m
    exact (paste_append ..).symm
  rw [copyMain, copiesOfMain, forRange_eq_paste hrows,
    forRange_eq_paste fun j m => haround (pipIni l / 2 + j) m,
    forRange_eq_paste fun j m => hrows (pipIni l / 2 + mosaicHeight l / 2 + j) m, paste_append,
    paste_append]

theorem updateMain_eq (sws : Swscale) (s : Mosaic) {image : Image} (keepAspectRatio : Bool)
    (hwidth : image.width = s.layout.mosaicTotalWidth)
    (hheight : image.height = s.layout.mosaicTotalHeight) :
    (updateMain sws s image keepAspectRatio).mosaic =
      paste s.layout image.imageY (copiesOfMain s.layout) s.mosaic := by
  have hpixels : image.imgNumPixels = s.layout.mosaicNumPixels := by
    rw [Image.imgNumPixels, hwidth, hheight, Layout.mosaicNumPixels, Nat.mul_comm]
  have hu : image.imageU = fun a => image.imageY (s.layout.mosaicNumPixels + a) := by
    funext a
    rw [Image.imageU, hpixels]
  have hv : image.imageV =
      fun a => image.imageY (s.layout.mosaicNumPixels + s.layout.mosaicNumPixels / 4 + a) := by
    funext a
    rw [Image.imageV, Image.imageU, hpixels, Nat.add_assoc]
  rw [updateMain]
  dsimp only
  rw [if_pos ⟨hwidth, hheight⟩, hu, hv]
  exact copyMain_eq s.mosaic

theorem updatePip_eq (sws : Swscale) (s : Mosaic) {pos : Nat} {image : Image}
    (keepAspectRatio : Bool) (hwidth : image.width = mosaicWidth s.layout)
    (hheight : image.height = mosaicHeight s.layout) :
    (updatePip sws s pos image keepAspectRatio).mosaic =
      paste s.layout image.imageY (copiesOfSlot s.layout pos) s.mosaic := by
  have hpixels : image.imgNumPixels = mosaicWidth s.layout * mosaicHeight s.layout := by
    rw [Image.imgNumPixels, hwidth, hheight, Nat.mul_comm]
  have hini : pipIni s.layout % 2 = 0 := by
    rw [pipIni, size4Mul]
    omega
  have hrows := side_mul_side s.layout.width_even hini
  have hy (i : Nat) : (slotCopy s.layout .y pos i).dst s.layout.mosaicTotalWidth
      s.layout.mosaicTotalHeight = s.layout.mosaicTotalWidth * pipIni s.layout +
        intraWidth s.layout + (intraWidth s.layout + mosaicWidth s.layout) * (pos - 1) +
          s.layout.mosaicTotalWidth * i := by
    simp only [slotCopy, Copy.dst, Plane.cell, Plane.base, Plane.side, area, gap, areaWidth,
      Nat.mul_add]
    omega
  have hu (i : Nat) : (slotCopy s.layout .u pos i).dst s.layout.mosaicTotalWidth
      s.layout.mosaicTotalHeight = s.lineaU (s.layout.mosaicTotalWidth * pipIni s.layout / 4 +
        intraWidth s.layout / 2 +
          (intraWidth s.layout / 2 + mosaicWidthUV s.layout) * (pos - 1)) +
            s.layout.mosaicTotalWidth / 2 * i := by
    simp only [slotCopy, Copy.dst, Plane.cell, Plane.base, Plane.side, area, gap, areaWidth,
      Nat.mul_add, Mosaic.lineaU, Layout.mosaicNumPixels, hrows]
    omega
  have hv (i : Nat) : (slotCopy s.layout .v pos i).dst s.layout.mosaicTotalWidth
      s.layout.mosaicTotalHeight = s.lineaV (s.layout.mosaicTotalWidth * pipIni s.layout / 4 +
        intraWidth s.layout / 2 +
          (intraWidth s.layout / 2 + mosaicWidthUV s.layout) * (pos - 1)) +
            s.layout.mosaicTotalWidth / 2 * i := by
    simp only [slotCopy, Copy.dst, Plane.cell, Plane.base, Plane.side, area, gap, areaWidth,
      Nat.mul_add, Mosaic.lineaV, Mosaic.lineaU, Layout.mosaicNumPixels, hrows]
    omega
  rw [updatePip]
  rw [if_pos ⟨hwidth, hheight⟩, copiesOfSlot, paste_append, ← hheight]
  refine (forRange_eq_paste ?_ _).trans (congrArg _ (forRange_eq_paste ?_ _))
  · intro i m
    simp only [paste, Copy.applyAll, List.foldl_cons, List.foldl_nil, hu, hv]
    simp only [slotCopy, area, areaWidth, Plane.base, Image.imageU, Image.imageV, hpixels,
      Nat.add_assoc]
  · intro i m
    simp only [paste, Copy.applyAll, List.foldl_cons, List.foldl_nil, hy]
    simp only [slotCopy, area, areaWidth, Plane.base, hwidth, Nat.zero_add]

end Model

/-! ## Where the copies are -/

section Geometry

variable {l}

/-- What the sizes come to. -/
structure Sizes (l : Layout) : Prop where
  slots : l.numSlots = 2 ∨ l.numSlots = 4
  intra : intraWidth l = l.mosaicTotalWidth / 20 * 2
  widthUV : mosaicWidthUV l = l.mosaicTotalWidth / 20 * 2
  width : mosaicWidth l =
    if l.numSlots = 2 then l.mosaicTotalWidth / 16 * 4 else l.mosaicTotalWidth / 20 * 4
  height : mosaicHeight l =
    if l.numSlots = 2 then l.mosaicTotalHeight / 16 * 4 else l.mosaicTotalHeight / 20 * 4
  ini : pipIni l =
    (l.mosaicTotalHeight - mosaicHeight l - l.mosaicTotalHeight / 20) / 4 * 4

theorem sizes (hpip : l.mosaicType.create = .pip) : Sizes l where
  slots := by
    revert hpip
    rw [Layout.numSlots]
    cases l.mosaicType <;> simp [MosaicType.create, MosaicType.numSlots]
  intra := by
    rw [intraWidth, size4Mul]
    omega
  widthUV := by
    rw [mosaicWidthUV, size4Mul]
    omega
  width := by
    rw [mosaicWidth, size4Mul, size4Mul, Nat.div_div_eq_div_mul, Nat.div_div_eq_div_mul]
  height := by
    rw [mosaicHeight, size4Mul, size4Mul, Nat.div_div_eq_div_mul, Nat.div_div_eq_div_mul]
  ini := by
    have hintra : intraHeight l = l.mosaicTotalHeight / 20 := by
      rw [intraHeight, size4Mul]
      omega
    rw [pipIni, size4Mul, hintra]

theorem spaces_le (h : Sizes l) (p : Plane) :
    (gap l p + areaWidth l p) * (l.numSlots - 1) ≤ p.side l.mosaicTotalWidth := by
  have hsides : gap l p = p.side (l.mosaicTotalWidth / 20 * 2) := by rw [gap, h.intra]
  rcases h.slots with hslots | hslots
  · have hwidth := h.width
    rw [if_pos hslots] at hwidth
    rw [hslots, hsides]
    cases p <;> simp only [areaWidth, Plane.side, h.widthUV, hwidth] <;> omega
  · have hwidth := h.width
    rw [if_neg (by omega)] at hwidth
    rw [hslots, hsides]
    cases p <;> simp only [areaWidth, Plane.side, h.widthUV, hwidth] <;> omega

theorem rows_le (h : Sizes l) : pipIni l + mosaicHeight l ≤ l.mosaicTotalHeight := by
  have hini := h.ini
  have hheight := h.height
  have hle : mosaicHeight l ≤ l.mosaicTotalHeight := by
    rw [hheight]
    split <;> omega
  omega

theorem even_rows (h : Sizes l) : pipIni l % 2 = 0 ∧ mosaicHeight l % 2 = 0 := by
  rw [h.ini, h.height]
  constructor
  · omega
  · split <;> omega

theorem columns_iff (gap width x k : Nat) :
    ((∃ i < k, (gap + width) * i ≤ x ∧ x < (gap + width) * i + gap) ∨ (gap + width) * k ≤ x) ↔
      ∀ pos, 0 < pos → pos < k + 1 → ¬(gap + (gap + width) * (pos - 1) ≤ x ∧
        x < gap + (gap + width) * (pos - 1) + width) := by
  have hmono {i j : Nat} (hij : i < j) :
      (gap + width) * i + (gap + width) ≤ (gap + width) * j := by
    rw [← Nat.mul_succ]
    exact Nat.mul_le_mul_left _ hij
  constructor
  · rintro (⟨i, hi, hle, hlt⟩ | hle) pos hpos hpos' ⟨hle', hlt'⟩
    · rcases Nat.lt_trichotomy i (pos - 1) with hij | rfl | hij
      · have := hmono hij
        omega
      · omega
      · have := hmono hij
        omega
    · have := hmono (show pos - 1 < k by omega)
      omega
  · intro h
    induction k with
    | zero => exact .inr (by omega)
    | succ k ih =>
      rcases ih fun pos hpos hpos' => h pos hpos (by omega) with ⟨i, hi, hpiece⟩ | hle
      · exact .inl ⟨i, by omega, hpiece⟩
      · by_cases hgap : x < (gap + width) * k + gap
        · exact .inl ⟨k, by omega, hle, hgap⟩
        · have hno := h (k + 1) (by omega) (by omega)
          rw [Nat.add_sub_cancel] at hno
          refine .inr ?_
          rw [Nat.mul_succ]
          omega

/-- The copies write a part of a row of a plane. -/
def Writes (copies : List Copy) (p : Plane) (x y : Nat) : Prop :=
  ∃ c ∈ copies, c.plane = p ∧ c.y = y ∧ c.x ≤ x ∧ x < c.x + c.n

theorem writes_append {copies copies' : List Copy} {p : Plane} {x y : Nat} :
    Writes (copies ++ copies') p x y ↔ Writes copies p x y ∨ Writes copies' p x y := by
  simp only [Writes, List.mem_append, or_and_right, exists_or]

theorem writes_range {n : Nat} {copies : Nat → List Copy} {p : Plane} {x y : Nat} :
    Writes ((List.range n).flatMap copies) p x y ↔ ∃ i < n, Writes (copies i) p x y := by
  simp only [Writes, List.mem_flatMap, List.mem_range]
  constructor
  · rintro ⟨c, ⟨i, hi, hc⟩, h⟩
    exact ⟨i, hi, c, hc, h⟩
  · rintro ⟨i, hi, c, hc, h⟩
    exact ⟨c, ⟨i, hi, hc⟩, h⟩

/-- In which pair of rows of the picture a row of a plane is. -/
def pairOf : Plane → Nat → Nat
  | .y, y => y / 2
  | _, y => y

theorem writes_pair (pair a n b k : Nat) {p : Plane} {x y : Nat} :
    Writes (copiesY l pair a n ++ copiesUV l pair b k) p x y ↔
      pairOf p y = pair ∧ (if p = .y then a ≤ x ∧ x < a + n else b ≤ x ∧ x < b + k) := by
  cases p <;>
    simp only [Writes, copiesY, copiesUV, sameCopy, List.cons_append, List.nil_append,
      List.mem_cons, List.not_mem_nil, or_false, exists_eq_or_imp, exists_eq_left, pairOf,
      reduceCtorEq, if_true, if_false, false_and, true_and, false_or]
  · omega
  · omega
  · omega

/-- The copies do not leave their rows. -/
def AllFit (l : Layout) (copies : List Copy) : Prop :=
  ∀ c ∈ copies, c.Fits l.mosaicTotalWidth l.mosaicTotalHeight

theorem allFit_append {copies copies' : List Copy} (h : AllFit l copies) (h' : AllFit l copies') :
    AllFit l (copies ++ copies') :=
  fun c hc => (List.mem_append.1 hc).elim (h c) (h' c)

theorem allFit_range {n : Nat} {copies : Nat → List Copy} (h : ∀ i < n, AllFit l (copies i)) :
    AllFit l ((List.range n).flatMap copies) := by
  intro c hc
  obtain ⟨i, hi, hc⟩ := List.mem_flatMap.1 hc
  exact h i (List.mem_range.1 hi) c hc

theorem allFit_pair {pair a n b k : Nat} (hpair : pair < l.mosaicTotalHeight / 2)
    (ha : a + n ≤ l.mosaicTotalWidth) (hb : b + k ≤ l.mosaicTotalWidth / 2) :
    AllFit l (copiesY l pair a n ++ copiesUV l pair b k) := by
  intro c hc
  simp only [copiesY, copiesUV, List.cons_append, List.nil_append, List.mem_cons,
    List.not_mem_nil, or_false] at hc
  rcases hc with rfl | rfl | rfl | rfl <;>
    simp only [Copy.Fits, sameCopy, Plane.side] <;> omega

theorem allFit_rows {pair : Nat} (hpair : pair < l.mosaicTotalHeight / 2) :
    AllFit l (copiesOfRows l pair) :=
  allFit_pair hpair (by omega) (by omega)

theorem allFit_around (h : Sizes l) {pair : Nat} (hpair : pair < l.mosaicTotalHeight / 2) :
    AllFit l (copiesAround l pair) := by
  have hy := spaces_le h .y
  have hu := spaces_le h .u
  simp only [gap, areaWidth, Plane.side] at hy hu
  rw [copiesAround]
  dsimp only
  refine allFit_append (allFit_range fun i hi => ?_) (allFit_pair hpair (by omega) (by omega))
  have hmono {d : Nat} : d * i + d ≤ d * (l.numSlots - 1) := by
    rw [← Nat.mul_succ]
    exact Nat.mul_le_mul_left _ hi
  have hmonoY := @hmono (intraWidth l + mosaicWidth l)
  have hmonoU := @hmono (intraWidth l / 2 + mosaicWidthUV l)
  exact allFit_pair hpair (by omega) (by omega)

theorem allFit_main (h : Sizes l) : AllFit l (copiesOfMain l) := by
  have hrows := rows_le h
  have heven := even_rows h
  refine allFit_append (allFit_range fun i hi => ?_)
    (allFit_append (allFit_range fun i hi => ?_) (allFit_range fun i hi => ?_))
  · exact allFit_rows (by omega)
  · exact allFit_around h (by omega)
  · exact allFit_rows (by omega)

theorem area_le (h : Sizes l) (p : Plane) {pos : Nat} (hpos : 0 < pos) (hlt : pos < l.numSlots) :
    (area l p pos).left + (area l p pos).width ≤ p.side l.mosaicTotalWidth := by
  have hspaces := spaces_le h p
  have hmono : (gap l p + areaWidth l p) * (pos - 1) + (gap l p + areaWidth l p) ≤
      (gap l p + areaWidth l p) * (l.numSlots - 1) := by
    rw [← Nat.mul_succ]
    exact Nat.mul_le_mul_left _ (by omega)
  simp only [area]
  omega

theorem area_rows_le (h : Sizes l) (p : Plane) (pos : Nat) :
    (area l p pos).top + (area l p pos).height ≤ p.side l.mosaicTotalHeight := by
  have hrows := rows_le h
  have heven := even_rows h
  cases p <;> simp only [area, Plane.side] <;> omega

theorem fits_slotCopy (h : Sizes l) {p : Plane} {pos i : Nat} (hpos : 0 < pos)
    (hlt : pos < l.numSlots) (hi : i < (area l p pos).height) :
    (slotCopy l p pos i).Fits l.mosaicTotalWidth l.mosaicTotalHeight := by
  have hrows := area_rows_le h p pos
  refine ⟨area_le h p hpos hlt, ?_⟩
  simp only [slotCopy]
  omega

theorem allFit_slot (h : Sizes l) {pos : Nat} (hpos : 0 < pos) (hlt : pos < l.numSlots) :
    AllFit l (copiesOfSlot l pos) := by
  refine allFit_append (allFit_range fun i hi => ?_) (allFit_range fun i hi => ?_)
  · intro c hc
    rw [List.mem_singleton.1 hc]
    exact fits_slotCopy h hpos hlt hi
  · intro c hc
    rcases List.mem_cons.1 hc with rfl | hc
    · exact fits_slotCopy h hpos hlt hi
    · rw [List.mem_singleton.1 hc]
      exact fits_slotCopy h hpos hlt hi

section Written

variable {p : Plane} {x y : Nat}

theorem covered_iff {copies : List Copy} (hfit : AllFit l copies)
    (hx : x < p.side l.mosaicTotalWidth) (hy : y < p.side l.mosaicTotalHeight) {c : Copy}
    (hc : c ∈ copies) :
    c.Covers l.mosaicTotalWidth l.mosaicTotalHeight
      (p.cell l.mosaicTotalWidth l.mosaicTotalHeight x y) ↔
        c.plane = p ∧ c.y = y ∧ c.x ≤ x ∧ x < c.x + c.n :=
  Copy.covers_iff l.width_even l.height_even (hfit c hc) hx hy

theorem writes_rows (hx : x < p.side l.mosaicTotalWidth) (pair : Nat) :
    Writes (copiesOfRows l pair) p x y ↔ pairOf p y = pair := by
  rw [copiesOfRows, writes_pair, and_iff_left]
  cases p with
  | y =>
    rw [Plane.side] at hx
    rw [if_pos rfl]
    omega
  | u =>
    rw [Plane.side] at hx
    rw [if_neg (by simp)]
    omega
  | v =>
    rw [Plane.side] at hx
    rw [if_neg (by simp)]
    omega

theorem writes_around (hx : x < p.side l.mosaicTotalWidth) (h : Sizes l) (pair : Nat) :
    Writes (copiesAround l pair) p x y ↔ pairOf p y = pair ∧ ∀ pos, 0 < pos → pos < l.numSlots →
      ¬((area l p pos).left ≤ x ∧ x < (area l p pos).left + (area l p pos).width) := by
  have hcolumns := columns_iff (gap l p) (areaWidth l p) x (l.numSlots - 1)
  have hslots : l.numSlots - 1 + 1 = l.numSlots := by
    rcases h.slots with hslots | hslots <;> rw [hslots]
  rw [hslots] at hcolumns
  have hpiece (i : Nat) : (if p = .y then (intraWidth l + mosaicWidth l) * i ≤ x ∧
      x < (intraWidth l + mosaicWidth l) * i + intraWidth l
        else (intraWidth l / 2 + mosaicWidthUV l) * i ≤ x ∧
          x < (intraWidth l / 2 + mosaicWidthUV l) * i + intraWidth l / 2) ↔
      (gap l p + areaWidth l p) * i ≤ x ∧ x < (gap l p + areaWidth l p) * i + gap l p := by
    cases p <;> simp [gap, areaWidth, Plane.side]
  have hlast (k : Nat) : (if p = .y then (intraWidth l + mosaicWidth l) * k ≤ x ∧
      x < (intraWidth l + mosaicWidth l) * k +
        (l.mosaicTotalWidth - (intraWidth l + mosaicWidth l) * k)
        else (intraWidth l / 2 + mosaicWidthUV l) * k ≤ x ∧
          x < (intraWidth l / 2 + mosaicWidthUV l) * k +
            (l.mosaicTotalWidth / 2 - (intraWidth l / 2 + mosaicWidthUV l) * k)) ↔
      (gap l p + areaWidth l p) * k ≤ x := by
    cases p with
    | y =>
      simp only [gap, areaWidth, Plane.side, if_true] at hx ⊢
      omega
    | u =>
      simp only [gap, areaWidth, Plane.side, reduceCtorEq, if_false] at hx ⊢
      omega
    | v =>
      simp only [gap, areaWidth, Plane.side, reduceCtorEq, if_false] at hx ⊢
      omega
  simp only [area]
  rw [← hcolumns, copiesAround]
  dsimp only
  rw [writes_append, writes_range, writes_pair, hlast]
  simp only [writes_pair, hpiece]
  constructor
  · rintro (⟨i, hi, hpair, hpiece⟩ | ⟨hpair, hlast⟩)
    · exact ⟨hpair, .inl ⟨i, hi, hpiece⟩⟩
    · exact ⟨hpair, .inr hlast⟩
  · rintro ⟨hpair, ⟨i, hi, hpiece⟩ | hlast⟩
    · exact .inl ⟨i, hi, hpair, hpiece⟩
    · exact .inr ⟨hpair, hlast⟩

theorem rows_iff (h : Sizes l) (pos : Nat) :
    ((area l p pos).top ≤ y ∧ y < (area l p pos).top + (area l p pos).height) ↔
      pipIni l / 2 ≤ pairOf p y ∧ pairOf p y < pipIni l / 2 + mosaicHeight l / 2 := by
  have heven := even_rows h
  cases p <;> simp only [area, Plane.side, pairOf]
  omega

theorem writes_main (h : Sizes l) (hx : x < p.side l.mosaicTotalWidth)
    (hy : y < p.side l.mosaicTotalHeight) :
    Writes (copiesOfMain l) p x y ↔
      ∀ pos, 0 < pos → pos < l.numSlots → ¬(area l p pos).Mem x y := by
  have hlt : pairOf p y < l.mosaicTotalHeight / 2 := by
    have := l.height_even
    cases p <;> simp only [Plane.side, pairOf] at hy ⊢ <;> omega
  have heven := even_rows h
  have hrows := rows_le h
  have hmem (pos : Nat) : (area l p pos).Mem x y ↔
      ((area l p pos).left ≤ x ∧ x < (area l p pos).left + (area l p pos).width) ∧
        pipIni l / 2 ≤ pairOf p y ∧ pairOf p y < pipIni l / 2 + mosaicHeight l / 2 := by
    rw [Rect.Mem, rows_iff h]
  rw [copiesOfMain, writes_append, writes_append, writes_range, writes_range, writes_range]
  simp only [writes_rows hx, writes_around hx h, hmem]
  by_cases hbeside : pipIni l / 2 ≤ pairOf p y ∧
    pairOf p y < pipIni l / 2 + mosaicHeight l / 2
  · simp only [hbeside, and_true]
    constructor
    · rintro (⟨i, hi, hpair⟩ | ⟨i, hi, -, hcolumns⟩ | ⟨i, hi, hpair⟩)
      · omega
      · exact hcolumns
      · omega
    · intro hcolumns
      exact .inr (.inl ⟨pairOf p y - pipIni l / 2, by omega, by omega, hcolumns⟩)
  · refine iff_of_true ?_ fun pos _ _ hmem => hbeside hmem.2
    by_cases habove : pairOf p y < pipIni l / 2
    · exact .inl ⟨pairOf p y, habove, rfl⟩
    · exact .inr (.inr ⟨pairOf p y - (pipIni l / 2 + mosaicHeight l / 2), by omega, by omega⟩)

theorem writes_slot (pos : Nat) : Writes (copiesOfSlot l pos) p x y ↔ (area l p pos).Mem x y := by
  have hsingle (q : Plane) (i : Nat) : Writes [slotCopy l q pos i] p x y ↔
      q = p ∧ (area l q pos).top + i = y ∧ (area l q pos).left ≤ x ∧
        x < (area l q pos).left + (area l q pos).width := by
    simp [Writes, slotCopy]
  have hpair (i : Nat) : Writes [slotCopy l .u pos i, slotCopy l .v pos i] p x y ↔
      Writes [slotCopy l .u pos i] p x y ∨ Writes [slotCopy l .v pos i] p x y :=
    @writes_append [slotCopy l .u pos i] [slotCopy l .v pos i] p x y
  have hrange {top height : Nat} {P : Prop} :
      (∃ i < height, top + i = y ∧ P) ↔ P ∧ top ≤ y ∧ y < top + height := by
    constructor
    · rintro ⟨i, hi, rfl, hP⟩
      exact ⟨hP, by omega, by omega⟩
    · rintro ⟨hP, hle, hlt⟩
      exact ⟨y - top, by omega, by omega, hP⟩
  rw [copiesOfSlot, writes_append, writes_range, writes_range]
  simp only [hpair, hsingle]
  cases p <;> simp only [reduceCtorEq, false_and, true_and, and_false, exists_false, or_false,
    false_or, hrange, Rect.Mem] <;> rfl

/-! ## What the copies write -/

theorem same_of_mem_main {c : Copy} (hc : c ∈ copiesOfMain l) :
    c.src = c.dst l.mosaicTotalWidth l.mosaicTotalHeight := by
  have hpair {pair a n b k : Nat} (hc : c ∈ copiesY l pair a n ++ copiesUV l pair b k) :
      c.src = c.dst l.mosaicTotalWidth l.mosaicTotalHeight := by
    simp only [copiesY, copiesUV, List.cons_append, List.nil_append, List.mem_cons,
      List.not_mem_nil, or_false] at hc
    rcases hc with rfl | rfl | rfl | rfl <;> rfl
  have haround {pair : Nat} (hc : c ∈ copiesAround l pair) :
      c.src = c.dst l.mosaicTotalWidth l.mosaicTotalHeight := by
    rcases List.mem_append.1 hc with hc | hc
    · obtain ⟨i, -, hc⟩ := List.mem_flatMap.1 hc
      exact hpair hc
    · exact hpair hc
  rcases List.mem_append.1 hc with hc | hc
  · obtain ⟨i, -, hc⟩ := List.mem_flatMap.1 hc
    exact hpair hc
  · rcases List.mem_append.1 hc with hc | hc
    · obtain ⟨i, -, hc⟩ := List.mem_flatMap.1 hc
      exact haround hc
    · obtain ⟨i, -, hc⟩ := List.mem_flatMap.1 hc
      exact hpair hc

theorem exists_of_mem_slot {pos : Nat} {c : Copy} (hc : c ∈ copiesOfSlot l pos) :
    ∃ q i, c = slotCopy l q pos i ∧ i < (area l q pos).height := by
  rcases List.mem_append.1 hc with hc | hc
  · obtain ⟨i, hi, hc⟩ := List.mem_flatMap.1 hc
    exact ⟨.y, i, List.mem_singleton.1 hc, List.mem_range.1 hi⟩
  · obtain ⟨i, hi, hc⟩ := List.mem_flatMap.1 hc
    rcases List.mem_cons.1 hc with rfl | hc
    · exact ⟨.u, i, rfl, List.mem_range.1 hi⟩
    · exact ⟨.v, i, List.mem_singleton.1 hc, List.mem_range.1 hi⟩

section Values

variable {image : Pointer} {m : Nat → UInt8} {pos : Nat}

theorem paste_of_not {copies : List Copy} (hfit : AllFit l copies)
    (hx : x < p.side l.mosaicTotalWidth) (hy : y < p.side l.mosaicTotalHeight)
    (hno : ¬Writes copies p x y) :
    paste l image copies m (p.cell l.mosaicTotalWidth l.mosaicTotalHeight x y) =
      m (p.cell l.mosaicTotalWidth l.mosaicTotalHeight x y) :=
  Copy.applyAll_of_not fun c hc hcovers => hno ⟨c, hc, (covered_iff hfit hx hy hc).1 hcovers⟩

theorem paste_main_outside (h : Sizes l) (hx : x < p.side l.mosaicTotalWidth)
    (hy : y < p.side l.mosaicTotalHeight)
    (hno : ∀ pos, 0 < pos → pos < l.numSlots → ¬(area l p pos).Mem x y) :
    paste l image (copiesOfMain l) m (p.cell l.mosaicTotalWidth l.mosaicTotalHeight x y) =
      image (p.cell l.mosaicTotalWidth l.mosaicTotalHeight x y) := by
  obtain ⟨c, hc, hwrites⟩ := (writes_main h hx hy).2 hno
  refine Copy.applyAll_of_covered ⟨c, hc, (covered_iff (allFit_main h) hx hy hc).2 hwrites⟩ ?_
  intro c hc hcovers
  rw [same_of_mem_main hc, Nat.add_sub_cancel' hcovers.1]

theorem paste_main_inside (h : Sizes l) (hpos : 0 < pos) (hlt : pos < l.numSlots)
    (hx : x < p.side l.mosaicTotalWidth) (hy : y < p.side l.mosaicTotalHeight)
    (hmem : (area l p pos).Mem x y) :
    paste l image (copiesOfMain l) m (p.cell l.mosaicTotalWidth l.mosaicTotalHeight x y) =
      m (p.cell l.mosaicTotalWidth l.mosaicTotalHeight x y) :=
  paste_of_not (allFit_main h) hx hy fun hwrites =>
    (writes_main h hx hy).1 hwrites pos hpos hlt hmem

theorem paste_slot_inside (h : Sizes l) (hpos : 0 < pos) (hlt : pos < l.numSlots)
    (hx : x < p.side l.mosaicTotalWidth) (hy : y < p.side l.mosaicTotalHeight)
    (hmem : (area l p pos).Mem x y) :
    paste l image (copiesOfSlot l pos) m (p.cell l.mosaicTotalWidth l.mosaicTotalHeight x y) =
      image (p.base (mosaicWidth l * mosaicHeight l) +
        areaWidth l p * (y - (area l p pos).top) + (x - (area l p pos).left)) := by
  obtain ⟨c, hc, hwrites⟩ := (writes_slot pos).2 hmem
  have hfit := allFit_slot h hpos hlt
  refine Copy.applyAll_of_covered ⟨c, hc, (covered_iff hfit hx hy hc).2 hwrites⟩ ?_
  intro c hc hcovers
  obtain ⟨hplane, hrow, hle, hlt⟩ := (covered_iff hfit hx hy hc).1 hcovers
  obtain ⟨q, i, rfl, -⟩ := exists_of_mem_slot hc
  obtain rfl : q = p := hplane
  obtain rfl : (area l q pos).top + i = y := hrow
  have hle : (area l q pos).left ≤ x := hle
  congr 1
  rw [Nat.add_sub_cancel_left]
  simp only [slotCopy, Copy.dst, Plane.cell]
  rw [show (area l q pos).width = areaWidth l q from rfl]
  omega

theorem paste_slot_outside (h : Sizes l) (hpos : 0 < pos) (hlt : pos < l.numSlots)
    (hx : x < p.side l.mosaicTotalWidth) (hy : y < p.side l.mosaicTotalHeight)
    (hmem : ¬(area l p pos).Mem x y) :
    paste l image (copiesOfSlot l pos) m (p.cell l.mosaicTotalWidth l.mosaicTotalHeight x y) =
      m (p.cell l.mosaicTotalWidth l.mosaicTotalHeight x y) :=
  paste_of_not (allFit_slot h hpos hlt) hx hy fun hwrites => hmem ((writes_slot pos).1 hwrites)

theorem area_apart {pos' : Nat} (hpos : 0 < pos) (hpos' : 0 < pos') (hne : pos ≠ pos')
    (hmem : (area l p pos).Mem x y) : ¬(area l p pos').Mem x y := by
  have hmono {i j : Nat} (hij : i < j) : (gap l p + areaWidth l p) * i +
      (gap l p + areaWidth l p) ≤ (gap l p + areaWidth l p) * j := by
    rw [← Nat.mul_succ]
    exact Nat.mul_le_mul_left _ hij
  intro hmem'
  simp only [Rect.Mem, area] at hmem hmem'
  rcases Nat.lt_trichotomy (pos - 1) (pos' - 1) with hlt | heq | hlt
  · have := hmono hlt
    omega
  · omega
  · have := hmono hlt
    omega

end Values

end Written

end Geometry

/-! ## What is asked of it -/

/-- An update with an image of exactly the size of a slot. -/
def Exact (l : Layout) : Mosaic.Call → Prop
  | .update pos (some image) _ =>
    pos < l.numSlots ∧ image.width = l.getWidth pos ∧ image.height = l.getHeight pos
  | _ => False

/-- The last image of each slot. -/
def lastImage (last : Nat → Option Image) : Mosaic.Call → Nat → Option Image
  | .update pos (some image) _ => Function.update last pos (some image)
  | _ => last

/-- In the rectangle of each small slot, and in its half in the chroma planes, the last image of the
slot is seen, and outside of these the last main image. -/
structure Painted (l : Layout) (m : Nat → UInt8) (last : Nat → Option Image) : Prop where
  slots : ∀ pos image, 0 < pos → pos < l.numSlots → last pos = some image → ∀ (p : Plane) x y,
    (p.part (l.slot pos)).Mem x y → m (p.cell l.mosaicTotalWidth l.mosaicTotalHeight x y) =
      image.imageY (p.cell image.width image.height (x - (p.part (l.slot pos)).left)
        (y - (p.part (l.slot pos)).top))
  main : ∀ image, last 0 = some image → ∀ (p : Plane) x y, x < p.side l.mosaicTotalWidth →
    y < p.side l.mosaicTotalHeight →
    (∀ pos, 0 < pos → pos < l.numSlots → ¬(p.part (l.slot pos)).Mem x y) →
    m (p.cell l.mosaicTotalWidth l.mosaicTotalHeight x y) =
      image.imageY (p.cell l.mosaicTotalWidth l.mosaicTotalHeight x y)

end PIPMosaic

/-- A picture-in-picture layout whose sides are multiples of 4. -/
structure PIPLayout where
  layout : Layout
  pip : layout.mosaicType.create = .pip
  width_four : layout.mosaicTotalWidth % 4 = 0
  height_four : layout.mosaicTotalHeight % 4 = 0

namespace PIPLayout

open PIPMosaic

variable (l : PIPLayout)

/-- Whatever the order of the updates, the mosaic is painted. -/
def Paints : Prop :=
  ∀ (sws : Swscale) (buffer : Nat → UInt8) (calls : List Mosaic.Call),
    (∀ call ∈ calls, Exact l.layout call) →
      Painted l.layout ((Mosaic.new l.layout buffer).run sws calls).mosaic
        (calls.foldl lastImage fun _ => none)

/-- An update makes copies that stay inside the frame and the image. -/
def StaysInside : Prop :=
  ∀ (sws : Swscale) (s : Mosaic) (pos : Nat) (image : Image) (keepAspectRatio : Bool),
    s.layout = l.layout → Exact l.layout (.update pos (some image) keepAspectRatio) →
      (s.step sws (.update pos (some image) keepAspectRatio)).mosaic =
        paste l.layout image.imageY (copies l.layout pos) s.mosaic ∧
      ∀ c ∈ copies l.layout pos,
        c.dst l.layout.mosaicTotalWidth l.layout.mosaicTotalHeight + c.n ≤
            numSamples l.layout.mosaicTotalWidth l.layout.mosaicTotalHeight ∧
          c.src + c.n ≤ numSamples image.width image.height

/-- A layout whose small slots have no samples or are painted where the getters say: with three of
them in a frame that is less than 60 rows high, with one of them in a frame in which a sixteenth and
a twentieth of the width are the same, and the tops too. -/
def Agrees : Prop :=
  if l.layout.numSlots = 2 then
    l.layout.mosaicTotalWidth < 16 ∨ l.layout.mosaicTotalHeight < 16 ∨
      l.layout.mosaicTotalWidth / 16 = l.layout.mosaicTotalWidth / 20 ∧
        l.layout.mosaicTotalHeight / 16 + (l.layout.mosaicTotalHeight / 20 + 3) / 4 =
          l.layout.mosaicTotalHeight / 20 + (l.layout.mosaicTotalHeight / 20 + 1) / 2
  else l.layout.mosaicTotalWidth < 20 ∨ l.layout.mosaicTotalHeight < 60

/-! ## The rectangles of the getters -/

section Getters

variable {l} {pos : Nat}

theorem slot_eq (hpos : 0 < pos) (hlt : pos < l.layout.numSlots) : l.layout.slot pos =
    ⟨l.layout.mosaicTotalWidth / 20 * 2 +
        (l.layout.mosaicTotalWidth / 20 * 2 + l.layout.mosaicTotalWidth / 20 * 4) * (pos - 1),
      (l.layout.mosaicTotalHeight - l.layout.mosaicTotalHeight / 20 * 4 -
        l.layout.mosaicTotalHeight / 20 * 2) / 4 * 4,
      mosaicWidth l.layout, mosaicHeight l.layout⟩ := by
  have hnot : ¬l.layout.numSlots < pos + 1 := by omega
  have hpos' : pos ≠ 0 := by omega
  simp only [Layout.slot, Layout.getLeft, Layout.getTop, Layout.getWidth, Layout.getHeight, l.pip,
    getLeft, getTop, getWidth, getHeight, if_neg hnot, if_neg hpos', mosaicWidth, mosaicHeight,
    size4Mul, Nat.div_div_eq_div_mul, Rect.mk.injEq, and_true]
  refine ⟨?_, ?_⟩
  · rw [show l.layout.mosaicTotalWidth / (5 * 4) * 4 / 2 = l.layout.mosaicTotalWidth / 20 * 2 by
      omega]
  · rw [show l.layout.mosaicTotalHeight / (5 * 4) * 4 / 2 = l.layout.mosaicTotalHeight / 20 * 2 by
      omega]

theorem floor_quarter (q m k : Nat) : (4 * q - m * 4 - k) / 4 = q - m - (k + 3) / 4 := by
  omega

theorem floor_half (q k : Nat) : (4 * q - k * 4 - k * 2) / 4 = q - k - (k + 1) / 2 := by
  omega

theorem one_top_iff {height : Nat} (hfour : height % 4 = 0) :
    (height - height / 16 * 4 - height / 20) / 4 =
        (height - height / 20 * 4 - height / 20 * 2) / 4 ↔
      height / 16 + (height / 20 + 3) / 4 = height / 20 + (height / 20 + 1) / 2 := by
  obtain ⟨q, rfl⟩ := Nat.dvd_of_mod_eq_zero hfour
  have hm : 4 * q / 16 = q / 4 := by omega
  have hk : 4 * q / 20 = q / 5 := by omega
  rw [hm, hk, floor_quarter, floor_half]
  omega

theorem three_tops_iff {height : Nat} (hfour : height % 4 = 0) :
    (height - height / 20 * 4 - height / 20) / 4 =
        (height - height / 20 * 4 - height / 20 * 2) / 4 ↔ height < 60 := by
  obtain ⟨q, rfl⟩ := Nat.dvd_of_mod_eq_zero hfour
  have hk : 4 * q / 20 = q / 5 := by omega
  rw [hk, floor_quarter, floor_half]
  omega

theorem half_left (n j : Nat) :
    n * 2 / 2 + (n * 2 / 2 + n * 2) * j = (n * 2 + (n * 2 + n * 4) * j) / 2 := by
  rw [Nat.mul_div_cancel n Nat.two_pos,
    show n * 2 + (n * 2 + n * 4) * j = (n + (n + n * 2) * j) * 2 by ring,
    Nat.mul_div_cancel _ Nat.two_pos]

theorem area_eq_part (hpos : 0 < pos) (hlt : pos < l.layout.numSlots)
    (hw : mosaicWidth l.layout = l.layout.mosaicTotalWidth / 20 * 4)
    (hini : pipIni l.layout = (l.layout.mosaicTotalHeight - l.layout.mosaicTotalHeight / 20 * 4 -
      l.layout.mosaicTotalHeight / 20 * 2) / 4 * 4) (p : Plane) :
    area l.layout p pos = p.part (l.layout.slot pos) := by
  have h := sizes l.pip
  have hhalf : l.layout.mosaicTotalWidth / 20 * 2 = l.layout.mosaicTotalWidth / 20 * 4 / 2 := by
    omega
  rw [slot_eq hpos hlt]
  cases p <;> simp only [area, Plane.part, Plane.side, areaWidth, gap, h.intra, h.widthUV, hw, hini,
    half_left, ← hhalf]

theorem area_eq (hagrees : l.Agrees) (hpos : 0 < pos) (hlt : pos < l.layout.numSlots) (p : Plane) :
    area l.layout p pos = p.part (l.layout.slot pos) ∨
      ∀ x y, ¬(area l.layout p pos).Mem x y ∧ ¬(p.part (l.layout.slot pos)).Mem x y := by
  have h := sizes l.pip
  have hw := h.width
  have hh := h.height
  have hini := h.ini
  have hfour := l.height_four
  rw [Agrees] at hagrees
  rcases h.slots with hslots | hslots
  · rw [if_pos hslots] at hw hh hagrees
    rw [hh] at hini
    by_cases hempty : l.layout.mosaicTotalWidth < 16 ∨ l.layout.mosaicTotalHeight < 16
    · refine .inr fun x y => ?_
      rw [slot_eq hpos hlt]
      cases p <;> simp only [Rect.Mem, area, Plane.part, Plane.side, areaWidth, h.widthUV, hw, hh] <;>
        omega
    · rw [or_assoc.symm, or_iff_right hempty] at hagrees
      obtain ⟨hwidths, htop⟩ := hagrees
      rw [(one_top_iff hfour).2 htop] at hini
      rw [hwidths] at hw
      exact .inl (area_eq_part hpos hlt hw hini p)
  · rw [if_neg (by omega)] at hw hh hagrees
    rw [hh] at hini
    by_cases hempty : l.layout.mosaicTotalWidth < 20 ∨ l.layout.mosaicTotalHeight < 20
    · refine .inr fun x y => ?_
      rw [slot_eq hpos hlt]
      cases p <;> simp only [Rect.Mem, area, Plane.part, Plane.side, areaWidth, h.widthUV, hw, hh] <;>
        omega
    · rw [(three_tops_iff hfour).2 (by omega)] at hini
      exact .inl (area_eq_part hpos hlt hw hini p)

theorem getWidth_eq (hpos : 0 < pos) (hlt : pos < l.layout.numSlots) :
    l.layout.getWidth pos = mosaicWidth l.layout :=
  congrArg Rect.width (slot_eq hpos hlt)

theorem getHeight_eq (hpos : 0 < pos) (hlt : pos < l.layout.numSlots) :
    l.layout.getHeight pos = mosaicHeight l.layout :=
  congrArg Rect.height (slot_eq hpos hlt)

theorem getWidth_zero (l : PIPLayout) : l.layout.getWidth 0 = l.layout.mosaicTotalWidth :=
  congrArg Rect.width (Layout.slot_pip_zero l.pip)

theorem getHeight_zero (l : PIPLayout) : l.layout.getHeight 0 = l.layout.mosaicTotalHeight :=
  congrArg Rect.height (Layout.slot_pip_zero l.pip)

end Getters

/-! ## Runs -/

section Runs

variable {l} {sws : Swscale} {s : Mosaic} {pos : Nat} {image : Image} {keepAspectRatio : Bool}

theorem step_eq (hlayout : s.layout = l.layout)
    (hexact : Exact l.layout (.update pos (some image) keepAspectRatio)) :
    (s.step sws (.update pos (some image) keepAspectRatio)).mosaic =
        paste l.layout image.imageY (copies l.layout pos) s.mosaic ∧
      (s.step sws (.update pos (some image) keepAspectRatio)).layout = l.layout := by
  obtain ⟨hlt, hwidth, hheight⟩ := hexact
  have hstep : s.step sws (.update pos (some image) keepAspectRatio) =
      if pos = 0 then updateMain sws s image keepAspectRatio
      else updatePip sws s pos image keepAspectRatio := by
    simp only [Mosaic.step, hlayout, l.pip, PIPMosaic.update, apply_ite Prod.snd]
    rw [if_neg (by omega)]
  rw [hstep, copies]
  by_cases hpos : pos = 0
  · rw [if_pos hpos, if_pos hpos]
    rw [hpos, getWidth_zero, ← hlayout] at hwidth
    rw [hpos, getHeight_zero, ← hlayout] at hheight
    rw [← hlayout]
    refine ⟨updateMain_eq sws s keepAspectRatio hwidth hheight, ?_⟩
    rw [updateMain]
    dsimp only
    rw [if_pos ⟨hwidth, hheight⟩]
  · rw [if_neg hpos, if_neg hpos]
    rw [getWidth_eq (by omega) hlt, ← hlayout] at hwidth
    rw [getHeight_eq (by omega) hlt, ← hlayout] at hheight
    rw [← hlayout]
    refine ⟨updatePip_eq sws s keepAspectRatio hwidth hheight, ?_⟩
    rw [updatePip, if_pos ⟨hwidth, hheight⟩]

variable {m : Nat → UInt8} {last : Nat → Option Image}

theorem painted_update (hagrees : l.Agrees) (h : Painted l.layout m last)
    (hexact : Exact l.layout (.update pos (some image) keepAspectRatio)) :
    Painted l.layout (paste l.layout image.imageY (copies l.layout pos) m)
      (Function.update last pos (some image)) := by
  obtain ⟨hlt, hwidth, hheight⟩ := hexact
  have hsizes := sizes l.pip
  constructor
  · intro q image' hq hq' hlast p x y hmem
    have harea : area l.layout p q = p.part (l.layout.slot q) := by
      rcases area_eq hagrees hq hq' p with harea | hempty
      · exact harea
      · exact absurd hmem (hempty x y).2
    have hleft := area_le hsizes p hq hq'
    have htop := area_rows_le hsizes p q
    rw [← harea] at hmem ⊢
    have hx : x < p.side l.layout.mosaicTotalWidth := lt_of_lt_of_le hmem.1.2 hleft
    have hy : y < p.side l.layout.mosaicTotalHeight := lt_of_lt_of_le hmem.2.2 htop
    have hkeeps (hne : q ≠ pos) : m (p.cell l.layout.mosaicTotalWidth l.layout.mosaicTotalHeight
        x y) = image'.imageY (p.cell image'.width image'.height
          (x - (area l.layout p q).left) (y - (area l.layout p q).top)) := by
      rw [Function.update_of_ne hne] at hlast
      rw [harea] at hmem ⊢
      exact h.slots q image' hq hq' hlast p x y hmem
    by_cases hpos : pos = 0
    · rw [copies, if_pos hpos, paste_main_inside hsizes hq hq' hx hy hmem]
      exact hkeeps (by omega)
    · rw [copies, if_neg hpos]
      by_cases heq : q = pos
      · subst heq
        rw [Function.update_self] at hlast
        obtain rfl := Option.some.inj hlast
        have hside : areaWidth l.layout p = p.side image.width := by
          rw [hwidth]
          exact congrArg Rect.width harea
        rw [paste_slot_inside hsizes hq hq' hx hy hmem, Plane.cell, hside, hwidth, hheight,
          getWidth_eq hq hq', getHeight_eq hq hq']
      · rw [paste_slot_outside hsizes (by omega) hlt hx hy
          (area_apart hq (by omega) heq hmem)]
        exact hkeeps heq
  · intro image' hlast p x y hx hy hno
    have hno' (q : Nat) (hq : 0 < q) (hq' : q < l.layout.numSlots) :
        ¬(area l.layout p q).Mem x y := by
      rcases area_eq hagrees hq hq' p with harea | hempty
      · rw [harea]
        exact hno q hq hq'
      · exact (hempty x y).1
    by_cases hpos : pos = 0
    · subst hpos
      rw [Function.update_self] at hlast
      obtain rfl := Option.some.inj hlast
      rw [copies, if_pos rfl, paste_main_outside hsizes hx hy hno']
    · rw [Function.update_of_ne (Ne.symm hpos)] at hlast
      rw [copies, if_neg hpos,
        paste_slot_outside hsizes (by omega) hlt hx hy (hno' pos (by omega) hlt)]
      exact h.main image' hlast p x y hx hy hno

theorem paints_of_agrees (hagrees : l.Agrees) : l.Paints := by
  intro sws buffer calls hcalls
  have hrun : ((Mosaic.new l.layout buffer).run sws calls).layout = l.layout ∧
      Painted l.layout ((Mosaic.new l.layout buffer).run sws calls).mosaic
        (calls.foldl lastImage fun _ => none) := by
    induction calls using List.reverseRecOn with
    | nil =>
      refine ⟨rfl, ?_, ?_⟩
      · intro pos image _ _ hnone
        cases hnone
      · intro image hnone
        cases hnone
    | append_singleton calls call ih =>
      obtain ⟨hlayout, hpainted⟩ := ih fun call hcall => hcalls call (List.mem_append_left _ hcall)
      have hexact := hcalls call (List.mem_append_right _ List.mem_cons_self)
      have hlast : (calls ++ [call]).foldl lastImage (fun _ => none) =
          lastImage (calls.foldl lastImage fun _ => none) call := List.foldl_append ..
      have hstep : (Mosaic.new l.layout buffer).run sws (calls ++ [call]) =
          ((Mosaic.new l.layout buffer).run sws calls).step sws call := List.foldl_append ..
      rw [hlast, hstep]
      cases call with
      | clean pos => exact hexact.elim
      | update pos image keepAspectRatio =>
        cases image with
        | none => exact hexact.elim
        | some image =>
          obtain ⟨hmosaic, hlayout'⟩ := @step_eq l sws _ pos image keepAspectRatio hlayout hexact
          rw [hmosaic]
          exact ⟨hlayout', painted_update hagrees hpainted hexact⟩
  exact hrun.2

theorem fits_le {c : Copy} {width height : Nat} (hwidth : width % 2 = 0) (hheight : height % 2 = 0)
    (hfits : c.Fits width height) : c.dst width height + c.n ≤ numSamples width height := by
  obtain ⟨hn, hrow⟩ := hfits
  rcases Nat.eq_zero_or_pos c.n with hzero | hpos
  · have hbase : c.plane.base (width * height) + c.plane.side width * c.plane.side height ≤
        numSamples width height := by
      have hchroma := side_mul_side hwidth hheight
      rw [numSamples]
      cases c.plane <;> simp only [Plane.base, Plane.side, hchroma] <;> omega
    have hrows : c.plane.side width * (c.y + 1) ≤ c.plane.side width * c.plane.side height :=
      Nat.mul_le_mul_left _ hrow
    rw [Nat.mul_succ] at hrows
    rw [Copy.dst, Plane.cell]
    omega
  · have hlt := @cell_lt_numSamples width height (c.x + (c.n - 1)) c.y c.plane hwidth hheight
      (by omega) hrow
    rw [Plane.cell] at hlt
    rw [Copy.dst, Plane.cell]
    omega

theorem slot_src_le (h : Sizes l.layout) {p : Plane} {i : Nat}
    (hi : i < (area l.layout p pos).height) :
    (slotCopy l.layout p pos i).src + (slotCopy l.layout p pos i).n ≤
      numSamples (mosaicWidth l.layout) (mosaicHeight l.layout) := by
  have hw : mosaicWidth l.layout % 2 = 0 := by
    rw [h.width]
    split <;> omega
  have hchroma := side_mul_side hw (even_rows h).2
  have hnarrow : mosaicWidthUV l.layout ≤ mosaicWidth l.layout / 2 := by
    rw [h.widthUV, h.width]
    split <;> omega
  have hside : areaWidth l.layout p ≤ p.side (mosaicWidth l.layout) := by
    cases p
    · exact Nat.le_refl _
    · exact hnarrow
    · exact hnarrow
  have hrow : areaWidth l.layout p * i + areaWidth l.layout p ≤
      p.side (mosaicWidth l.layout) * p.side (mosaicHeight l.layout) := by
    rw [← Nat.mul_succ]
    exact Nat.mul_le_mul hside hi
  rw [numSamples]
  cases p <;> simp only [slotCopy, area, Plane.base, Plane.side, hchroma] at hrow ⊢ <;> omega

theorem staysInside (l : PIPLayout) : l.StaysInside := by
  intro sws s pos image keepAspectRatio hlayout hexact
  refine ⟨(step_eq hlayout hexact).1, fun c hc => ?_⟩
  obtain ⟨hlt, hwidth, hheight⟩ := hexact
  have h := sizes l.pip
  by_cases hpos : pos = 0
  · rw [copies, if_pos hpos] at hc
    have hle := fits_le l.layout.width_even l.layout.height_even (allFit_main h c hc)
    rw [hpos, getWidth_zero] at hwidth
    rw [hpos, getHeight_zero] at hheight
    rw [same_of_mem_main hc, hwidth, hheight]
    exact ⟨hle, hle⟩
  · rw [copies, if_neg hpos] at hc
    refine ⟨fits_le l.layout.width_even l.layout.height_even
      (allFit_slot h (by omega) hlt c hc), ?_⟩
    obtain ⟨q, i, rfl, hi⟩ := exists_of_mem_slot hc
    rw [hwidth, hheight, getWidth_eq (by omega) hlt, getHeight_eq (by omega) hlt]
    exact slot_src_le h hi

end Runs

/-! ## Where the seams are -/

section Seams

variable {l}

/-- A picture of one value. -/
def plain (width height : Nat) (value : UInt8) : Image := ⟨width, height, fun _ => value⟩

/-- The main image is all 0, and then that of the first small slot all 1. -/
def twoImages (l : PIPLayout) : List Mosaic.Call :=
  [.update 0 (some (plain l.layout.mosaicTotalWidth l.layout.mosaicTotalHeight 0)) false,
    .update 1 (some (plain (mosaicWidth l.layout) (mosaicHeight l.layout) 1)) false]

theorem one_lt_numSlots (h : Sizes l.layout) : 1 < l.layout.numSlots := by
  rcases h.slots with hslots | hslots <;> omega

theorem exact_twoImages (h : Sizes l.layout) : ∀ call ∈ twoImages l, Exact l.layout call := by
  have hone := one_lt_numSlots h
  intro call hcall
  rcases List.mem_cons.1 hcall with rfl | hcall
  · exact ⟨by omega, (getWidth_zero l).symm, (getHeight_zero l).symm⟩
  · rw [List.mem_singleton.1 hcall]
    exact ⟨hone, (getWidth_eq Nat.one_pos hone).symm, (getHeight_eq Nat.one_pos hone).symm⟩

/-- A library that scales nothing. -/
def noScaling : Swscale where
  init _ _ _ _ := false
  adjust _ _ _ _ := (0, 0)
  scale _ srcY _ _ := srcY
  init_pos _ _ _ _ h := absurd h Bool.false_ne_true
  adjust_le _ _ _ _ := ⟨Nat.zero_le _, Nat.zero_le _⟩

/-- The frame behind these. -/
def twoPastes (l : PIPLayout) : Nat → UInt8 :=
  paste l.layout (fun _ => 1) (copiesOfSlot l.layout 1)
    (paste l.layout (fun _ => 0) (copiesOfMain l.layout)
      (Mosaic.new l.layout fun _ => 0).mosaic)

theorem painted_twoPastes (hpaints : l.Paints) :
    Painted l.layout (twoPastes l) ((twoImages l).foldl lastImage fun _ => none) := by
  have hexact := exact_twoImages (sizes l.pip)
  have hpainted := hpaints noScaling (fun _ => 0) (twoImages l) hexact
  obtain ⟨hmain, hlayout⟩ := @step_eq l noScaling (Mosaic.new l.layout fun _ => 0) 0 _ false rfl
    (hexact _ List.mem_cons_self)
  obtain ⟨hslot, -⟩ := @step_eq l noScaling _ 1 _ false hlayout
    (hexact _ (List.mem_cons_of_mem _ List.mem_cons_self))
  rw [hmain] at hslot
  have hrun : ((Mosaic.new l.layout fun _ => 0).run noScaling (twoImages l)).mosaic =
      twoPastes l := hslot
  rwa [hrun] at hpainted

variable {p : Plane} {x y : Nat}

theorem twoPastes_inside (hx : x < p.side l.layout.mosaicTotalWidth)
    (hy : y < p.side l.layout.mosaicTotalHeight) (hmem : (area l.layout p 1).Mem x y) :
    twoPastes l (p.cell l.layout.mosaicTotalWidth l.layout.mosaicTotalHeight x y) = 1 := by
  have h := sizes l.pip
  exact paste_slot_inside h Nat.one_pos (one_lt_numSlots h) hx hy hmem

theorem twoPastes_outside (hx : x < p.side l.layout.mosaicTotalWidth)
    (hy : y < p.side l.layout.mosaicTotalHeight)
    (hno : ∀ pos, 0 < pos → pos < l.layout.numSlots → ¬(area l.layout p pos).Mem x y) :
    twoPastes l (p.cell l.layout.mosaicTotalWidth l.layout.mosaicTotalHeight x y) = 0 := by
  have h := sizes l.pip
  have hone := one_lt_numSlots h
  rw [twoPastes, paste_slot_outside h Nat.one_pos hone hx hy (hno 1 Nat.one_pos hone)]
  exact paste_main_outside h hx hy hno

theorem covered_of_paints (hpaints : l.Paints) (hx : x < p.side l.layout.mosaicTotalWidth)
    (hy : y < p.side l.layout.mosaicTotalHeight) (hmem : (p.part (l.layout.slot 1)).Mem x y) :
    ∃ pos, 0 < pos ∧ pos < l.layout.numSlots ∧ (area l.layout p pos).Mem x y := by
  by_contra hno
  have hzero := twoPastes_outside hx hy fun pos hpos hlt hmem => hno ⟨pos, hpos, hlt, hmem⟩
  have hone := (painted_twoPastes hpaints).slots 1 _ Nat.one_pos (one_lt_numSlots (sizes l.pip))
    rfl p x y hmem
  have hequal : (0 : UInt8) = 1 := hzero.symm.trans hone
  exact absurd hequal (by decide)

theorem exists_of_paints (hpaints : l.Paints) (hx : x < p.side l.layout.mosaicTotalWidth)
    (hy : y < p.side l.layout.mosaicTotalHeight) (hmem : (area l.layout p 1).Mem x y) :
    ∃ pos, 0 < pos ∧ pos < l.layout.numSlots ∧ (p.part (l.layout.slot pos)).Mem x y := by
  by_contra hno
  have hone := twoPastes_inside hx hy hmem
  have hzero := (painted_twoPastes hpaints).main _ rfl p x y hx hy
    fun pos hpos hlt hmem => hno ⟨pos, hpos, hlt, hmem⟩
  have hequal : (1 : UInt8) = 0 := hone.symm.trans hzero
  exact absurd hequal (by decide)

theorem top_of_paints (hpaints : l.Paints) (hwidth : 0 < mosaicWidth l.layout)
    (hheight : 0 < mosaicHeight l.layout) :
    pipIni l.layout = (l.layout.mosaicTotalHeight - l.layout.mosaicTotalHeight / 20 * 4 -
      l.layout.mosaicTotalHeight / 20 * 2) / 4 * 4 := by
  have h := sizes l.pip
  have hone := one_lt_numSlots h
  have hleft := area_le h .y Nat.one_pos hone
  have hrows := rows_le h
  generalize htop : (l.layout.mosaicTotalHeight - l.layout.mosaicTotalHeight / 20 * 4 -
    l.layout.mosaicTotalHeight / 20 * 2) / 4 * 4 = top
  have hslot {pos : Nat} (hpos : 0 < pos) (hlt : pos < l.layout.numSlots) :
      (l.layout.slot pos).top = top := by
    rw [slot_eq hpos hlt]
    exact htop
  have hslot1 := @slot_eq l 1 Nat.one_pos hone
  simp only [area, gap, areaWidth, Plane.side, h.intra] at hleft
  rcases Nat.lt_trichotomy (pipIni l.layout) top with hlt | heq | hgt
  · -- the first row that is painted is above the rectangles
    obtain ⟨pos, hpos, hpos', hmem⟩ := @exists_of_paints l .y (area l.layout .y 1).left
      (pipIni l.layout) hpaints (by simp only [area, gap, Plane.side, h.intra]; omega)
      (by simp only [Plane.side]; omega)
      ⟨⟨Nat.le_refl _, by simp only [area, areaWidth]; omega⟩, Nat.le_refl _, by
        simp only [area, Plane.side]; omega⟩
    have hle := hmem.2.1
    simp only [Plane.part, Plane.side, hslot hpos hpos'] at hle
    omega
  · exact heq
  · -- the first row of the rectangles is above what is painted
    have hmem : (Plane.y.part (l.layout.slot 1)).Mem (l.layout.mosaicTotalWidth / 20 * 2) top := by
      rw [hslot1, htop]
      simp only [Rect.Mem, Plane.part, Plane.side]
      omega
    obtain ⟨pos, -, -, hmem'⟩ := covered_of_paints hpaints (by simp only [Plane.side]; omega)
      (by simp only [Plane.side]; omega) hmem
    have hle := hmem'.2.1
    simp only [area, Plane.side] at hle
    omega

theorem width_of_paints (hpaints : l.Paints) (hslots : l.layout.numSlots = 2)
    (hwidth : 0 < mosaicWidth l.layout) (hheight : 0 < mosaicHeight l.layout) :
    l.layout.mosaicTotalWidth / 16 = l.layout.mosaicTotalWidth / 20 := by
  have h := sizes l.pip
  have hone := one_lt_numSlots h
  have htop := top_of_paints hpaints hwidth hheight
  have hrows := rows_le h
  have heven := even_rows h
  have hw := h.width
  rw [if_pos hslots] at hw
  by_contra hne
  have hwide : l.layout.mosaicTotalWidth / 20 < l.layout.mosaicTotalWidth / 16 := by omega
  have hfits := spaces_le h .y
  simp only [gap, areaWidth, Plane.side, h.intra, hslots, hw] at hfits
  -- the last column of the rectangle in a chroma plane
  have hmem : (Plane.u.part (l.layout.slot 1)).Mem
      (l.layout.mosaicTotalWidth / 20 + l.layout.mosaicTotalWidth / 16 * 2 - 1)
      (pipIni l.layout / 2) := by
    rw [@slot_eq l 1 Nat.one_pos hone, ← htop]
    simp only [Rect.Mem, Plane.part, Plane.side, hw]
    omega
  obtain ⟨pos, hpos, hlt, hmem'⟩ := covered_of_paints hpaints (by simp only [Plane.side]; omega)
    (by simp only [Plane.side]; omega) hmem
  obtain rfl : pos = 1 := by omega
  have hright := hmem'.1.2
  simp only [area, gap, areaWidth, Plane.side, h.intra, h.widthUV] at hright
  omega

theorem agrees_of_paints (hpaints : l.Paints) : l.Agrees := by
  have h := sizes l.pip
  have hw := h.width
  have hh := h.height
  have hini := h.ini
  rw [Agrees]
  rcases h.slots with hslots | hslots
  · rw [if_pos hslots] at hw hh ⊢
    by_cases hempty : l.layout.mosaicTotalWidth < 16 ∨ l.layout.mosaicTotalHeight < 16
    · exact hempty.elim .inl fun hlow => .inr (.inl hlow)
    · have htop := top_of_paints hpaints (by omega) (by omega)
      rw [hini, hh] at htop
      refine .inr (.inr ⟨width_of_paints hpaints hslots (by omega) (by omega), ?_⟩)
      exact (one_top_iff l.height_four).1 (Nat.eq_of_mul_eq_mul_right (by omega) htop)
  · rw [if_neg (by omega)] at hw hh ⊢
    by_cases hempty : l.layout.mosaicTotalWidth < 20 ∨ l.layout.mosaicTotalHeight < 20
    · omega
    · have htop := top_of_paints hpaints (by omega) (by omega)
      rw [hini, hh] at htop
      exact .inr ((three_tops_iff l.height_four).1
        (Nat.eq_of_mul_eq_mul_right (by omega) htop))

end Seams

/-- The updates of a picture-in-picture mosaic stay inside the frame and the images, and whatever
their order is, the rectangles of the getters show the last images, if and only if the layout
agrees. -/
theorem paints_iff_agrees (l : PIPLayout) : l.Paints ∧ l.StaysInside ↔ l.Agrees := by
  constructor
  · rintro ⟨hpaints, -⟩
    exact agrees_of_paints hpaints
  · intro hagrees
    exact ⟨paints_of_agrees hagrees, staysInside l⟩

/-- Three small slots in a CIF frame. -/
def threeInCif : PIPLayout :=
  ⟨⟨.mosaicPIP3, 352, 288, rfl, rfl, Nat.succ_pos _, Nat.succ_pos _⟩, rfl, rfl, rfl⟩

/-- One small slot in a CIF frame. -/
def oneInCif : PIPLayout :=
  ⟨⟨.mosaicPIP1, 352, 288, rfl, rfl, Nat.succ_pos _, Nat.succ_pos _⟩, rfl, rfl, rfl⟩

/-- In both the small slots are not painted at the top that the getters say. -/
theorem not_paints_inCif : ¬threeInCif.Paints ∧ ¬oneInCif.Paints := by
  constructor
  · intro h
    have hagrees := agrees_of_paints h
    revert hagrees
    unfold Agrees
    decide
  · intro h
    have hagrees := agrees_of_paints h
    revert hagrees
    unfold Agrees
    decide

end PIPLayout

end McuMediaServer
